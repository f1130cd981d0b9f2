/-
Module: Dory.Batch.PerTopicConservation
Purpose: `TPerTopicBatcher` loses, duplicates and reorders no message.  Read
  topic by topic, each call hands back (in returned batches, in the list
  `DeleteTopic` returns, or as the message `AddMsg` leaves with the caller)
  and then holds exactly what the topic held before, followed by what the
  call received.  Over a run this gives, for every topic, the input order,
  and for all topics together a permutation of the input.  Every returned
  batch is nonempty and of one topic; a message stays with the caller only
  when its topic's batching is disabled; and a message the topic batcher
  leaves is returned as its own batch, right after the topic's batch.
Trusted boundary: none
Main exports: held, emitted, received, step_topic_law, step_batches,
  step_left, addMsg_leave, perTopicBatcher_conservation
-/
import Dory.Batch.ExpiryTracking

namespace Dory.Batch

open Dory.Foundation

namespace TPerTopicBatcher

/-- The messages the batcher holds, topic by topic in map order. -/
def held (batcher : TPerTopicBatcher) : List TMsg :=
  batcher.batchMap.flatMap fun item => item.2.batcher.msgList

/-- What a call hands back, in order: the returned batches, the list
`DeleteTopic` returned, and the message left with the caller. -/
def emitted (entry : Entry TPerTopicBatcher Op Output) : List TMsg :=
  entry.output.batches.flatten ++ entry.output.deleted ++ entry.output.left.toList

/-- What a call gives the batcher. -/
def received : Op → List TMsg
  | .addMsg msg _ => [msg]
  | _ => []

/-- Each batch of a map holds only messages of its topic. -/
def Separated (batchMap : List (String × TBatchMapEntry)) : Prop :=
  KeyedList.Grouped TMsg.topic batchMap fun entry => entry.batcher.msgList

theorem Tracked.separated {batcher : TPerTopicBatcher} (tracked : Tracked batcher) :
    Separated batcher.batchMap :=
  fun topic entry owned => (tracked.batchers topic entry owned).singleTopic

theorem batchOf_singleTopic {batchMap : List (String × TBatchMapEntry)}
    (separated : Separated batchMap) (topic : String) : SingleTopic topic (batchOf batchMap topic) :=
  KeyedList.Grouped.groupOf separated topic

theorem held_ofTopic {batcher : TPerTopicBatcher} (tracked : Tracked batcher) (topic : String) :
    ofTopic topic batcher.held = batchOf batcher.batchMap topic :=
  KeyedList.filter_flatMap_eq_groupOf tracked.uniqueTopics tracked.separated topic

/-!
### `GetCompleteBatches(now)`, topic by topic
-/

section CompleteBatches

variable {batcher : TPerTopicBatcher} (tracked : Tracked batcher)
include tracked

/-- A due topic's batch is handed back and taken; any other topic's batch
stays. -/
theorem getCompleteBatches_topic (now : TTimestamp) (topic : String) :
    ofTopic topic (batcher.getCompleteBatches now).1.flatten =
        (if topic ∈ (expiredNodes batcher.expiryTracker now).map (fun node => node.2.topic)
          then batchOf batcher.batchMap topic else []) ∧
      batchOf (batcher.getCompleteBatches now).2.batchMap topic =
        (if topic ∈ (expiredNodes batcher.expiryTracker now).map (fun node => node.2.topic)
          then [] else batchOf batcher.batchMap topic) := by
  rw [getCompleteBatches_eq tracked now]
  refine ⟨?_, batchOf_takeTopics tracked.uniqueTopics _ topic⟩
  have regrouped : ((expiredNodes batcher.expiryTracker now).map
      fun node => batchOf batcher.batchMap node.2.topic) =
      ((expiredNodes batcher.expiryTracker now).map fun node => node.2.topic).map
        (batchOf batcher.batchMap) := by
    rw [List.map_map]
    rfl
  rw [regrouped]
  exact KeyedList.filter_flatten_groupOf tracked.separated (expiredTopics_nodup tracked now) topic

/-- `GetCompleteBatches(now)` hands back, and then holds, exactly what each
topic held. -/
theorem getCompleteBatches_topic_law (now : TTimestamp) (topic : String) :
    ofTopic topic (batcher.getCompleteBatches now).1.flatten ++
        batchOf (batcher.getCompleteBatches now).2.batchMap topic =
      batchOf batcher.batchMap topic := by
  obtain ⟨handed, kept⟩ := getCompleteBatches_topic tracked now topic
  rw [handed, kept]
  split <;> simp

/-- A topic that is not due keeps its batch, and none of its messages is
handed back. -/
theorem getCompleteBatches_not_due (now : TTimestamp) {topic : String}
    (notDue : topic ∉ (expiredNodes batcher.expiryTracker now).map (fun node => node.2.topic)) :
    ofTopic topic (batcher.getCompleteBatches now).1.flatten = [] ∧
      batchOf (batcher.getCompleteBatches now).2.batchMap topic = batchOf batcher.batchMap topic := by
  obtain ⟨handed, kept⟩ := getCompleteBatches_topic tracked now topic
  rw [handed, kept, if_neg notDue, if_neg notDue]
  exact ⟨rfl, rfl⟩

/-- Every batch `GetCompleteBatches(now)` returns is nonempty and of one topic. -/
theorem getCompleteBatches_batches (now : TTimestamp) :
    ∀ batch ∈ (batcher.getCompleteBatches now).1, batch ≠ [] ∧ ∃ topic, SingleTopic topic batch := by
  rw [getCompleteBatches_eq tracked now]
  intro batch member
  obtain ⟨node, expired, rfl⟩ := List.mem_map.mp member
  obtain ⟨entry, -, -, same, nonempty⟩ := expired_batch tracked expired
  refine ⟨?_, node.2.topic, batchOf_singleTopic tracked.separated _⟩
  rw [same]
  exact nonempty

/-- `GetCompleteBatches(now)` hands back, and then holds, a reordering of
what the batcher held. -/
theorem getCompleteBatches_perm (now : TTimestamp) :
    ((batcher.getCompleteBatches now).1.flatten ++ (batcher.getCompleteBatches now).2.held).Perm
      batcher.held := by
  apply perm_of_filter_key_eq TMsg.topic
  intro topic
  change ofTopic topic _ = ofTopic topic _
  rw [ofTopic_append, held_ofTopic (tracked.getCompleteBatches now),
    getCompleteBatches_topic_law tracked, held_ofTopic tracked]

end CompleteBatches

/-!
### `AddMsg(msg, now)`, topic by topic
-/

theorem batchOf_addToTopic_other (batcher : TPerTopicBatcher) {topic other : String}
    (entry : TBatchMapEntry) (msg : TMsg) (now : TTimestamp) (different : other ≠ topic) :
    batchOf (batcher.addToTopic topic entry msg now).2.batchMap other =
      batchOf batcher.batchMap other := by
  rw [addToTopic_batchMap, batchOf_modify_of_ne _ different]

section AddToTopic

variable {batcher : TPerTopicBatcher} (tracked : Tracked batcher) {topic : String}
  {entry : TBatchMapEntry} (owned : (topic, entry) ∈ batcher.batchMap)
include tracked owned

theorem batchOf_addToTopic_self (msg : TMsg) (now : TTimestamp) :
    batchOf (batcher.addToTopic topic entry msg now).2.batchMap topic =
      (entry.batcher.addMsg msg now).2.msgList := by
  rw [addToTopic_batchMap, batchOf_modify_self tracked.uniqueTopics owned]

/-- After the topic batcher takes a message, its topic is not due at `now`:
the topic batcher passed the time test against `now` itself. -/
theorem addToTopic_not_due (enabled : entry.batcher.batchingIsEnabled = true) {msg : TMsg}
    (topicOf : msg.topic = topic) (now : TTimestamp) :
    topic ∉ (expiredNodes (batcher.addToTopic topic entry msg now).2.expiryTracker now).map
      (fun node => node.2.topic) := by
  intro due
  have kept := tracked.batchers topic entry owned
  have configEnabled : batchingIsEnabled (batcher.topicConfig topic) = true := by
    rw [← kept.consistent.batchingIsEnabled_eq]
    exact enabled
  obtain ⟨stored, expiry, storedOwned, scheduled, early⟩ :=
    (mem_expiredTopics_iff (tracked.addToTopic owned enabled topicOf now) now topic).mp due
  rw [addToTopic_batchMap] at storedOwned
  rcases KeyedList.mem_modify.mp storedOwned with ⟨different, -⟩ | ⟨-, value, -, changed⟩
  · exact different rfl
  · simp only at changed
    subst changed
    exact Int64.not_le.mpr
      (TSingleTopicBatcher.addMsg_nextCompleteTime_after configEnabled kept.consistent scheduled) early

end AddToTopic

/-- Reading the three results of `AddMsg` through the entry it found or
inserted: the entry is in the map, the map keeps the invariant and holds the
same batches. -/
theorem addMsg_found {batcher : TPerTopicBatcher} (tracked : Tracked batcher) (msg : TMsg) :
    ∃ entry next, batcher.findOrInsertEntry msg.topic = (entry, next) ∧ Tracked next ∧
      (msg.topic, entry) ∈ next.batchMap ∧ next.config = batcher.config ∧
      ∀ other, batchOf next.batchMap other = batchOf batcher.batchMap other := by
  obtain ⟨inserted, owned, -, -, sameBatches⟩ := tracked.findOrInsertEntry msg.topic
  exact ⟨_, _, rfl, inserted, owned, findOrInsertEntry_config batcher msg.topic, sameBatches⟩

section AddMsg

variable {batcher : TPerTopicBatcher} (tracked : Tracked batcher)
include tracked

/-- `AddMsg` hands back (in batches or left with the caller), and then holds,
exactly what each topic held followed by the message if it is of the topic. -/
theorem addMsg_topic_law (msg : TMsg) (now : TTimestamp) (topic : String) :
    ofTopic topic ((batcher.addMsg msg now).1.flatten ++ (batcher.addMsg msg now).2.1.toList) ++
        batchOf (batcher.addMsg msg now).2.2.batchMap topic =
      batchOf batcher.batchMap topic ++ ofTopic topic [msg] := by
  obtain ⟨entry, next, found, inserted, owned, -, sameBatches⟩ := addMsg_found tracked msg
  have kept := inserted.batchers msg.topic entry owned
  rw [← sameBatches topic]
  simp only [TPerTopicBatcher.addMsg, found]
  split
  · rename_i enabled
    have configEnabled : batchingIsEnabled (next.topicConfig msg.topic) = true := by
      rw [← kept.consistent.batchingIsEnabled_eq]
      exact enabled
    have added := inserted.addToTopic owned enabled rfl now
    have single := kept.addMsg_singleTopic configEnabled rfl now
    simp only [Option.toList_none, List.append_nil, List.flatten_append, addToTopic_fst,
      flatten_completeTopicBatches]
    rw [ofTopic_append]
    by_cases same : msg.topic = topic
    · -- the message's topic: its expired batches are none, its own batches are
      -- what the topic batcher handed back
      subst same
      obtain ⟨handed, stays⟩ := getCompleteBatches_not_due added now
        (addToTopic_not_due inserted owned enabled rfl now)
      have handedOwn : SingleTopic msg.topic
          ((entry.batcher.addMsg msg now).1.1 ++ (entry.batcher.addMsg msg now).1.2.toList) :=
        fun held member => single held (List.mem_append_left _ member)
      rw [handed, stays, batchOf_addToTopic_self inserted owned, handedOwn.ofTopic_self,
        batchOf_of_mem inserted.uniqueTopics owned, ofTopic_singleton, if_pos rfl, List.nil_append,
        TSingleTopicBatcher.addMsg_conserves configEnabled kept.consistent msg now]
    · -- another topic: only the expiry flush touches it
      have handedOwn : ofTopic topic
          ((entry.batcher.addMsg msg now).1.1 ++ (entry.batcher.addMsg msg now).1.2.toList) = [] :=
        SingleTopic.ofTopic_other (fun held member => single held (List.mem_append_left _ member))
          same
      have law := getCompleteBatches_topic_law added now topic
      rw [batchOf_addToTopic_other _ _ _ _ (Ne.symm same)] at law
      rw [handedOwn, ofTopic_singleton, if_neg same, List.append_nil, List.append_nil]
      exact law
  · rename_i disabled
    simp only [Option.toList_some, ofTopic_append]
    by_cases same : msg.topic = topic
    · -- the message stays with the caller; its topic holds nothing and is not due
      subst same
      have empty : entry.batcher.msgList = [] := by
        apply kept.disabledEmpty
        rw [← kept.consistent.batchingIsEnabled_eq]
        simpa using disabled
      have notDue : msg.topic ∉ (expiredNodes next.expiryTracker now).map
          (fun node => node.2.topic) := by
        intro due
        obtain ⟨stored, expiry, storedOwned, scheduled, -⟩ :=
          (mem_expiredTopics_iff inserted now msg.topic).mp due
        rw [inserted.entry_unique storedOwned owned] at scheduled
        exact kept.consistent.msgList_ne_nil scheduled empty
      obtain ⟨handed, stays⟩ := getCompleteBatches_not_due inserted now notDue
      rw [handed, stays, batchOf_of_mem inserted.uniqueTopics owned, empty]
      simp
    · have law := getCompleteBatches_topic_law inserted now topic
      rw [ofTopic_singleton, if_neg same, List.append_nil, List.append_nil]
      exact law

/-- Every batch `AddMsg` returns is nonempty and of one topic. -/
theorem addMsg_batches (msg : TMsg) (now : TTimestamp) :
    ∀ batch ∈ (batcher.addMsg msg now).1, batch ≠ [] ∧ ∃ topic, SingleTopic topic batch := by
  obtain ⟨entry, next, found, inserted, owned, -, -⟩ := addMsg_found tracked msg
  have kept := inserted.batchers msg.topic entry owned
  simp only [TPerTopicBatcher.addMsg, found]
  split
  · rename_i enabled
    have configEnabled : batchingIsEnabled (next.topicConfig msg.topic) = true := by
      rw [← kept.consistent.batchingIsEnabled_eq]
      exact enabled
    have single := kept.addMsg_singleTopic configEnabled rfl now
    intro batch member
    rcases List.mem_append.mp member with expired | own
    · exact getCompleteBatches_batches (inserted.addToTopic owned enabled rfl now) now batch expired
    · -- the topic's completed batch when nonempty, then the message it left
      simp only [addToTopic_fst, completeTopicBatches, List.mem_append] at own
      rcases own with complete | left
      · split at complete
        · cases complete
        · rename_i nonempty
          rw [List.mem_singleton] at complete
          subst complete
          refine ⟨fun empty => nonempty (List.isEmpty_iff.mpr empty), msg.topic, ?_⟩
          intro held member
          exact single held (List.mem_append_left _ (List.mem_append_left _ member))
      · split at left
        · rename_i leftMsg _
          rw [List.mem_singleton] at left
          subst left
          exact ⟨List.cons_ne_nil _ _, leftMsg.topic, by simp [SingleTopic]⟩
        · cases left
  · exact getCompleteBatches_batches inserted now

/-- When the topic batcher cannot take the message
(`LeaveMsgAndReturnBatch`), `AddMsg` returns the other topics' expired
batches, then the topic's held batch when nonempty, then the message as a
batch of its own, and leaves nothing with the caller. -/
theorem addMsg_leave (msg : TMsg) (now : TTimestamp)
    (enabled : batchingIsEnabled (batcher.topicConfig msg.topic) = true)
    (leave : ((batcher.findOrInsertEntry msg.topic).1.batcher.coreState.processNewMsg now msg).1 =
      .leaveMsgAndReturnBatch) :
    ∃ expired, (∀ batch ∈ expired, ∀ held ∈ batch, held.topic ≠ msg.topic) ∧
      (batcher.addMsg msg now).1 = expired ++
        (if batchOf batcher.batchMap msg.topic = [] then [] else [batchOf batcher.batchMap msg.topic]) ++
          [[msg]] ∧
      (batcher.addMsg msg now).2.1 = none := by
  obtain ⟨entry, next, found, inserted, owned, sameConfig, sameBatches⟩ := addMsg_found tracked msg
  have kept := inserted.batchers msg.topic entry owned
  rw [found] at leave
  dsimp only at leave
  have entryEnabled : entry.batcher.batchingIsEnabled = true := by
    rw [kept.consistent.batchingIsEnabled_eq, topicConfig_congr sameConfig]
    exact enabled
  have coreEnabled : Dory.Batch.batchingIsEnabled entry.batcher.coreState.config = true := by
    simpa [TSingleTopicBatcher.batchingIsEnabled] using entryEnabled
  have held : batchOf batcher.batchMap msg.topic = entry.batcher.msgList := by
    rw [← sameBatches, batchOf_of_mem inserted.uniqueTopics owned]
  obtain ⟨handed, -⟩ := getCompleteBatches_not_due (inserted.addToTopic owned entryEnabled rfl now) now
    (addToTopic_not_due inserted owned entryEnabled rfl now)
  refine ⟨((next.addToTopic msg.topic entry msg now).2.getCompleteBatches now).1, ?_, ?_, ?_⟩
  · -- the expired batches hold no message of the topic
    intro batch member other otherMember same
    have kept : other ∈ ofTopic msg.topic
        ((next.addToTopic msg.topic entry msg now).2.getCompleteBatches now).1.flatten :=
      List.mem_filter.mpr ⟨List.mem_flatten.mpr ⟨batch, member, otherMember⟩, by simp [same]⟩
    rw [handed] at kept
    cases kept
  · simp only [TPerTopicBatcher.addMsg, found, if_pos entryEnabled, addToTopic_fst,
      TSingleTopicBatcher.addMsg, TSingleTopicBatcher.doAddMsg_of_enabled coreEnabled, leave,
      TBatcherCore.returnedBatch, TBatcherCore.leftMsg, completeTopicBatches, held,
      List.append_assoc]
    by_cases empty : entry.batcher.msgList = [] <;> simp [empty]
  · simp [TPerTopicBatcher.addMsg, found, entryEnabled]

/-- `AddMsg` hands back, leaves with the caller, and then holds a reordering
of what the batcher held and the new message. -/
theorem addMsg_perm (msg : TMsg) (now : TTimestamp) :
    ((batcher.addMsg msg now).1.flatten ++ (batcher.addMsg msg now).2.1.toList ++
        (batcher.addMsg msg now).2.2.held).Perm (batcher.held ++ [msg]) := by
  apply perm_of_filter_key_eq TMsg.topic
  intro topic
  change ofTopic topic _ = ofTopic topic _
  rw [ofTopic_append, held_ofTopic (tracked.addMsg msg now), addMsg_topic_law tracked,
    ofTopic_append, held_ofTopic tracked]

end AddMsg

/-- The message `AddMsg` leaves with the caller is its own. -/
theorem addMsg_left_cases (batcher : TPerTopicBatcher) (msg : TMsg) (now : TTimestamp) :
    (batcher.addMsg msg now).2.1 = none ∨ (batcher.addMsg msg now).2.1 = some msg := by
  simp only [TPerTopicBatcher.addMsg]
  split
  · exact Or.inl rfl
  · exact Or.inr rfl

/-!
### `GetAllBatches()` and `DeleteTopic(topic)`, topic by topic
-/

theorem flatten_getAllBatches (batcher : TPerTopicBatcher) :
    batcher.getAllBatches.1.flatten = batcher.held :=
  KeyedList.flatten_filterMap_nonempty batcher.batchMap fun item => item.2.batcher.msgList

@[simp] theorem held_getAllBatches (batcher : TPerTopicBatcher) :
    batcher.getAllBatches.2.held = [] := by
  unfold held getAllBatches
  dsimp only
  rw [List.flatMap_map]
  simp

theorem getAllBatches_batches {batcher : TPerTopicBatcher} (tracked : Tracked batcher) :
    ∀ batch ∈ batcher.getAllBatches.1, batch ≠ [] ∧ ∃ topic, SingleTopic topic batch := by
  intro batch member
  obtain ⟨⟨topic, entry⟩, owned, kept⟩ := List.mem_filterMap.mp member
  by_cases empty : entry.batcher.msgList = []
  · simp [empty] at kept
  · simp only [empty, List.isEmpty_iff, if_false, Option.some.injEq] at kept
    subst kept
    exact ⟨empty, topic, tracked.separated topic entry owned⟩

theorem deleteTopic_topic_law {batcher : TPerTopicBatcher} (tracked : Tracked batcher)
    (topic other : String) :
    ofTopic other (batcher.deleteTopic topic).1 ++ batchOf (batcher.deleteTopic topic).2.batchMap other =
      batchOf batcher.batchMap other := by
  unfold TPerTopicBatcher.deleteTopic
  cases found : batcher.batchMap.lookup topic with
  | none => simp
  | some entry =>
      have owned := KeyedList.mem_of_lookup found
      have single : SingleTopic topic entry.batcher.msgList := tracked.separated topic entry owned
      simp only [TSingleTopicBatcher.takeBatch_fst]
      by_cases same : topic = other
      · -- the deleted topic: all of its batch is returned
        subst same
        rw [single.ofTopic_self, batchOf_of_mem tracked.uniqueTopics owned]
        simp [batchOf, KeyedList.groupOf]
      · rw [single.ofTopic_other same, List.nil_append]
        simp only [batchOf, KeyedList.groupOf, KeyedList.lookup_erase_of_ne (Ne.symm same)]

theorem deleteTopic_singleTopic {batcher : TPerTopicBatcher} (tracked : Tracked batcher)
    (topic : String) : SingleTopic topic (batcher.deleteTopic topic).1 := by
  unfold TPerTopicBatcher.deleteTopic
  cases found : batcher.batchMap.lookup topic with
  | none =>
      intro msg member
      cases member
  | some entry => exact tracked.separated topic entry (KeyedList.mem_of_lookup found)

/-!
### One call, then a whole run
-/

section Step

variable {batcher : TPerTopicBatcher} (tracked : Tracked batcher)
include tracked

/-- One call hands back, and then holds, exactly what each topic held
followed by what the call received of it. -/
theorem step_topic_law (op : Op) (topic : String) :
    ofTopic topic (emitted ⟨batcher, op, (step batcher op).1, (step batcher op).2⟩) ++
        batchOf (step batcher op).2.batchMap topic =
      batchOf batcher.batchMap topic ++ ofTopic topic (received op) := by
  cases op with
  | addMsg msg now =>
      simpa [emitted, step, received] using addMsg_topic_law tracked msg now topic
  | getCompleteBatches now =>
      simpa [emitted, step, received] using getCompleteBatches_topic_law tracked now topic
  | getAllBatches =>
      have emptied := held_ofTopic tracked.getAllBatches topic
      rw [held_getAllBatches, ofTopic_nil] at emptied
      simp only [emitted, step, received, Option.toList_none, List.append_nil,
        flatten_getAllBatches, ofTopic_nil, held_ofTopic tracked, ← emptied]
  | deleteTopic deleted =>
      simpa [emitted, step, received] using deleteTopic_topic_law tracked deleted topic

theorem step_batches (op : Op) :
    ∀ batch ∈ (step batcher op).1.batches, batch ≠ [] ∧ ∃ topic, SingleTopic topic batch := by
  cases op with
  | addMsg msg now => exact addMsg_batches tracked msg now
  | getCompleteBatches now => exact getCompleteBatches_batches tracked now
  | getAllBatches => exact getAllBatches_batches tracked
  | deleteTopic topic =>
      intro batch member
      cases member

/-- A call leaves a message with the caller only as an `AddMsg` whose topic
has batching disabled. -/
theorem step_left (op : Op) (msg : TMsg) (left : (step batcher op).1.left = some msg) :
    ∃ now, op = .addMsg msg now ∧ batchingIsEnabled (batcher.topicConfig msg.topic) = false := by
  cases op with
  | addMsg added now =>
      obtain ⟨entry, next, found, inserted, owned, sameConfig, -⟩ := addMsg_found tracked added
      have kept := inserted.batchers added.topic entry owned
      simp only [step, TPerTopicBatcher.addMsg, found] at left
      split at left
      · cases left
      · rename_i disabled
        cases left
        refine ⟨now, rfl, ?_⟩
        rw [← topicConfig_congr sameConfig, ← kept.consistent.batchingIsEnabled_eq]
        simpa using disabled
  | getCompleteBatches now => cases left
  | getAllBatches => cases left
  | deleteTopic topic => cases left

end Step

/-- Every state reachable from a new batcher with configuration `config`
keeps the invariant and the configuration. -/
def Reached (config : TPerTopicConfig) (batcher : TPerTopicBatcher) : Prop :=
  Tracked batcher ∧ batcher.config = some config

theorem Reached.step {config : TPerTopicConfig} {batcher : TPerTopicBatcher}
    (reached : Reached config batcher) (op : Op) : Reached config (step batcher op).2 :=
  ⟨reached.1.step op, by rw [step_config]; exact reached.2⟩

theorem Reached.topicConfig {config : TPerTopicConfig} {batcher : TPerTopicBatcher}
    (reached : Reached config batcher) : batcher.topicConfig = config.get := by
  funext topic
  simp [TPerTopicBatcher.topicConfig, reached.2]

/-- The conservation law of `TPerTopicBatcher` over every run of calls from a
new batcher with configuration `config`: (a) topic by topic, everything
handed back (returned batches, the lists `DeleteTopic` returned, messages left
with the caller) followed by what is still held is the input of that topic in
order; (b) over all topics it is a permutation of the input; (c) every
returned batch is nonempty, of one topic, and a sublist of the input; (d)
`DeleteTopic(topic)` returns messages of that topic only; (e) a message is
left with the caller only by an `AddMsg` whose topic has batching disabled;
(f) when the topic batcher cannot take the message
(`LeaveMsgAndReturnBatch`), the call returns the other topics' expired
batches, the topic's held batch when nonempty, and then the message alone. -/
theorem perTopicBatcher_conservation (config : TPerTopicConfig) (ops : List Op) :
    let run := trace step (init (some config)) ops
    let batcher := final step (init (some config)) ops
    (∀ topic, ofTopic topic (run.flatMap emitted) ++ ofTopic topic batcher.held =
        ofTopic topic (ops.flatMap received)) ∧
      (run.flatMap emitted ++ batcher.held).Perm (ops.flatMap received) ∧
      (∀ entry ∈ run, ∀ batch ∈ entry.output.batches, batch ≠ [] ∧
        (∃ topic, SingleTopic topic batch) ∧ batch.Sublist (ops.flatMap received)) ∧
      (∀ entry ∈ run, ∀ topic, entry.input = .deleteTopic topic →
        SingleTopic topic entry.output.deleted) ∧
      (∀ entry ∈ run, ∀ msg, entry.output.left = some msg →
        ∃ now, entry.input = .addMsg msg now ∧ batchingIsEnabled (config.get msg.topic) = false) ∧
      (∀ entry ∈ run, ∀ msg now, entry.input = .addMsg msg now →
        batchingIsEnabled (config.get msg.topic) = true →
        ((entry.before.findOrInsertEntry msg.topic).1.batcher.coreState.processNewMsg now msg).1 =
          .leaveMsgAndReturnBatch →
        ∃ expired, (∀ batch ∈ expired, ∀ held ∈ batch, held.topic ≠ msg.topic) ∧
          entry.output.batches = expired ++
            (if batchOf entry.before.batchMap msg.topic = [] then []
              else [batchOf entry.before.batchMap msg.topic]) ++ [[msg]]) := by
  intro run batcher
  have start : Reached config (init (some config)) := ⟨Tracked.init _, rfl⟩
  have preserved : ∀ (state : TPerTopicBatcher) op, Reached config state →
      Reached config (step state op).2 := fun _ op reached => reached.step op
  have final : Reached config batcher := final_invariant preserved _ ops start
  -- (a) topic by topic, from the one-call law
  have perTopic : ∀ topic, ofTopic topic (run.flatMap emitted) ++ ofTopic topic batcher.held =
      ofTopic topic (ops.flatMap received) := by
    intro topic
    have conserved : ∀ (state : TPerTopicBatcher) op, Reached config state → ∀ topic,
        (emitted ⟨state, op, (step state op).1, (step state op).2⟩).filter
            (fun msg => TMsg.topic msg == topic) ++ batchOf (step state op).2.batchMap topic =
          batchOf state.batchMap topic ++ (received op).filter (fun msg => TMsg.topic msg == topic) :=
      fun state op reached topic => step_topic_law reached.1 op topic
    have law := trace_outputs_filter TMsg.topic (fun topic state => batchOf state.batchMap topic)
      preserved conserved _ ops start topic
    have empty : batchOf (init (some config)).batchMap topic = [] := rfl
    rw [empty, List.nil_append] at law
    rw [held_ofTopic final.1]
    exact law
  refine ⟨perTopic, ?_, ?_, ?_, ?_, ?_⟩
  · exact perm_of_filter_key_eq TMsg.topic fun topic => by
      simpa [ofTopic] using perTopic topic
  · -- a batch is a piece of the emitted stream of its own topic, which is a
    -- prefix of that topic's input
    intro entry member batch returned
    obtain ⟨nonempty, topic, single⟩ := trace_forall
      (P := fun entry => ∀ batch ∈ entry.output.batches, batch ≠ [] ∧ ∃ topic, SingleTopic topic batch)
      preserved (fun state op reached => step_batches reached.1 op) _ ops start entry member
      batch returned
    have inRun : (emitted entry).IsInfix (run.flatMap emitted) := by
      rw [List.flatMap_def]
      exact List.infix_of_mem_flatten (List.mem_map_of_mem member)
    have inEmitted : batch.IsInfix (run.flatMap emitted) :=
      (List.infix_of_mem_flatten returned).trans
        ((List.prefix_append _ _).isInfix.trans ((List.prefix_append _ _).isInfix.trans inRun))
    exact ⟨nonempty, ⟨topic, single⟩, sublist_of_keyed_piece single inEmitted (perTopic topic)⟩
  · intro entry member topic deleting
    refine trace_forall (P := fun entry => ∀ topic, entry.input = .deleteTopic topic →
        SingleTopic topic entry.output.deleted) preserved ?_ _ ops start entry member topic deleting
    intro state op reached topic isDelete
    subst isDelete
    exact deleteTopic_singleTopic reached.1 topic
  · intro entry member msg left
    refine trace_forall (P := fun entry => ∀ msg, entry.output.left = some msg →
        ∃ now, entry.input = .addMsg msg now ∧ batchingIsEnabled (config.get msg.topic) = false)
      preserved ?_ _ ops start entry member msg left
    intro state op reached msg left
    rw [← reached.topicConfig]
    exact step_left reached.1 op msg left
  · intro entry member msg now adding enabled leave
    refine trace_forall (P := fun entry => ∀ msg now, entry.input = .addMsg msg now →
        batchingIsEnabled (config.get msg.topic) = true →
        ((entry.before.findOrInsertEntry msg.topic).1.batcher.coreState.processNewMsg now msg).1 =
          .leaveMsgAndReturnBatch →
        ∃ expired, (∀ batch ∈ expired, ∀ held ∈ batch, held.topic ≠ msg.topic) ∧
          entry.output.batches = expired ++
            (if batchOf entry.before.batchMap msg.topic = [] then []
              else [batchOf entry.before.batchMap msg.topic]) ++ [[msg]])
      preserved ?_ _ ops start entry member msg now adding enabled leave
    intro state op reached msg now isAdd enabled leave
    subst isAdd
    rw [← reached.topicConfig] at enabled
    obtain ⟨expired, others, batches, -⟩ := addMsg_leave reached.1 msg now enabled leave
    exact ⟨expired, others, batches⟩

end TPerTopicBatcher

end Dory.Batch
