/-
Module: Dory.MsgDispatch.RequestContents
Purpose: What `BuildRequestContents` builds, stated as invariants of its two
  loops over the messages `placed` in the result so far.  The result holds
  exactly those messages, each message set those of its topic and partition
  in the order they were placed, with the `DataSize` of a compressed topic's
  set their summed size and overhead; the data size of the request is the
  sum of their sizes.  The choosers keep their counts through a request,
  are used exactly when an AnyPartition message of their topic is placed,
  and stay current, so that every AnyPartition message gets the entry of
  its topic's count.  Each loop is shown to keep the invariant and, on the
  queues the router hands over, to run without a fault.  As in
  `Dory.MsgDispatch.ProduceRequestFactory`, asserts are faults.
Trusted boundary: none
Main exports: SetHolds, ResultHolds, TopicDataHolds, BatchHolds, QueueHolds,
  queuedMsgs, tryConsumeFrontMsg_holds, consumeBatch_holds, consumeQueue_holds,
  buildRequestContents_cases, buildRequestContents_progress
-/
import Dory.MsgDispatch.ProduceRequestFactory
import Dory.Foundation.BatchQueue

namespace Dory.MsgDispatch

open Dory.Foundation TAnyPartitionChooser

section Invariants

variable (conf : TFactoryConf)

/-- What a message set of a result holds after the messages `placed` went
into the result: its messages are of its topic and partition and in the
order they were placed, and a compressed topic's set is sized by them. -/
structure SetContents (compressionCodec : Bool) (placed : List TPartitionedMsg) (topic : String)
    (partition : Int) (msgSet : TMsgSet) : Prop where
  keyed : ∀ msg ∈ msgSet.contents, msg.msg.topic = topic ∧ msg.partition = partition
  ordered : msgSet.contents.Sublist placed
  sized : compressionCodec = true →
    msgSet.dataSize = (msgSet.contents.map fun msg => msg.msg.keyAndValueSize + conf.singleMsgOverhead).sum

/-- A stored message set: besides its contents, it is nonempty, and a
compressed topic's set of more than one message stays within
`MessageMaxBytes`. -/
structure SetHolds (compressionCodec : Bool) (placed : List TPartitionedMsg) (topic : String)
    (partition : Int) (msgSet : TMsgSet) : Prop extends
    SetContents conf compressionCodec placed topic partition msgSet where
  nonempty : msgSet.contents ≠ []
  bounded : compressionCodec = true → msgSet.contents.length = 1 ∨ msgSet.dataSize ≤ conf.messageMaxBytes

/-- The result after the messages `placed` went into it, in that order, and
the data size counted for them. -/
structure ResultHolds (compressionCodec : String → Bool) (placed : List TPartitionedMsg)
    (resultDataSize : Nat) (result : TRequestContents) : Prop where
  sized : resultDataSize = (placed.map fun msg => msg.msg.keyAndValueSize).sum
  msgs : result.msgs.Perm placed
  groups : ∀ entry ∈ result.entries, entry.2.entries ≠ []
  sets : ∀ topic partition msgSet, result.MsgSetIn topic partition msgSet →
    SetHolds conf (compressionCodec topic) placed topic partition msgSet

/-- An AnyPartition message of `topic`. -/
def isAnyPartitionOf (topic : String) (msg : TPartitionedMsg) : Bool :=
  msg.msg.topic == topic && msg.msg.routingType == .anyPartition

/-- How the data of `topic` stand, while a request is built, to the data
`start` the request began with, after `placed` went into the result. -/
structure TopicDataHolds (start : String → TTopicData) (placed : List TPartitionedMsg) (topic : String)
    (topicData : TTopicData) : Prop where
  compressionCodec : topicData.compressionCodec = (start topic).compressionCodec
  count : topicData.anyPartitionChooser.count = (start topic).anyPartitionChooser.count
  used : topicData.anyPartitionChooser.choiceUsed =
    ((start topic).anyPartitionChooser.choiceUsed || placed.any (isAnyPartitionOf topic))
  current : ChoiceCurrent (conf.partitionChoices topic) (start topic).anyPartitionChooser →
    ChoiceCurrent (conf.partitionChoices topic) topicData.anyPartitionChooser

/-- Every placed AnyPartition message got the entry of its topic's count at
the start, when its chooser was current then. -/
def ChosenFrom (start : String → TTopicData) (placed : List TPartitionedMsg) : Prop :=
  ∀ msg ∈ placed, msg.msg.routingType = .anyPartition →
    ChoiceCurrent (conf.partitionChoices msg.msg.topic) (start msg.msg.topic).anyPartitionChooser →
    (conf.partitionChoices msg.msg.topic)[(start msg.msg.topic).anyPartitionChooser.count.toNat %
      (conf.partitionChoices msg.msg.topic).length]? = some msg.partition

/-- The invariant of the loop over one batch of `topic`. -/
structure BatchHolds (start : String → TTopicData) (placed : List TPartitionedMsg) (topic : String)
    (state : TBuildState) : Prop where
  result : ResultHolds conf (fun topic => (start topic).compressionCodec) placed state.resultDataSize state.result
  topicData : TopicDataHolds conf start placed topic state.topicData
  chosen : ChosenFrom conf start placed

/-- The invariant of the loop over the queue. -/
structure QueueHolds (start : String → TTopicData) (placed : List TPartitionedMsg)
    (topicDataMap : String → TTopicData) (resultDataSize : Nat) (result : TRequestContents) : Prop where
  result : ResultHolds conf (fun topic => (start topic).compressionCodec) placed resultDataSize result
  topicData : ∀ topic, TopicDataHolds conf start placed topic (topicDataMap topic)
  chosen : ChosenFrom conf start placed

end Invariants

/-- The messages of a queue, batch by batch, without their partitions. -/
def queuedMsgs (queue : List (List TPartitionedMsg)) : List (List TMsg) :=
  queue.map (List.map TPartitionedMsg.msg)

/-! ### One message -/

section Steps

variable {conf : TFactoryConf}

theorem SetContents.append {compressionCodec : Bool} {placed : List TPartitionedMsg} {topic : String}
    {partition : Int} {msgSet : TMsgSet} (holds : SetContents conf compressionCodec placed topic partition msgSet)
    (more : List TPartitionedMsg) : SetContents conf compressionCodec (placed ++ more) topic partition msgSet :=
  { holds with ordered := holds.ordered.trans (List.sublist_append_left placed more) }

theorem SetHolds.append {compressionCodec : Bool} {placed : List TPartitionedMsg} {topic : String}
    {partition : Int} {msgSet : TMsgSet} (holds : SetHolds conf compressionCodec placed topic partition msgSet)
    (more : List TPartitionedMsg) : SetHolds conf compressionCodec (placed ++ more) topic partition msgSet :=
  { holds.toSetContents.append more with nonempty := holds.nonempty, bounded := holds.bounded }

/-- A set with one more message: `DataSize` grows by the message's size and
overhead, and stays within `MessageMaxBytes` unless the message is alone. -/
theorem SetContents.add {compressionCodec : Bool} {placed : List TPartitionedMsg} {topic : String}
    {partition : Int} {msgSet : TMsgSet} {msg : TPartitionedMsg} {newDataSize : Nat}
    (holds : SetContents conf compressionCodec placed topic partition msgSet)
    (keyed : msg.msg.topic = topic ∧ msg.partition = partition)
    (sized : compressionCodec = true →
      newDataSize = msgSet.dataSize + msg.msg.keyAndValueSize + conf.singleMsgOverhead)
    (bounded : compressionCodec = true → msgSet.contents = [] ∨ newDataSize ≤ conf.messageMaxBytes) :
    SetHolds conf compressionCodec (placed ++ [msg]) topic partition (msgSet.add compressionCodec newDataSize msg) where
  keyed := by
    intro other member
    rcases List.mem_append.mp member with old | added
    · exact holds.keyed other old
    · rw [List.mem_singleton.mp added]
      exact keyed
  ordered := holds.ordered.append (List.Sublist.refl [msg])
  sized := fun compressed => by
    simp only [TMsgSet.add, compressed, if_true, List.map_append, List.sum_append, List.map_cons,
      List.map_nil, List.sum_cons, List.sum_nil]
    rw [sized compressed, holds.sized compressed]
    omega
  nonempty := by simp [TMsgSet.add]
  bounded := fun compressed => by
    rcases bounded compressed with empty | within
    · exact .inl (by simp [TMsgSet.add, empty])
    · exact .inr (by simp [TMsgSet.add, compressed, within])

theorem ResultHolds.empty (compressionCodec : String → Bool) :
    ResultHolds conf compressionCodec [] 0 OrderedMap.empty where
  sized := rfl
  msgs := List.Perm.refl _
  groups := fun _ member => absurd member List.not_mem_nil
  sets := fun _ _ _ ⟨_, member, _⟩ => absurd member List.not_mem_nil

/-- The set that `result[topic][partition]` refers to has the contents facts,
stored or new. -/
theorem ResultHolds.msgSetAt {compressionCodec : String → Bool} {placed : List TPartitionedMsg}
    {resultDataSize : Nat} {result : TRequestContents}
    (holds : ResultHolds conf compressionCodec placed resultDataSize result) (topic : String) (partition : Int) :
    SetContents conf (compressionCodec topic) placed topic partition (result.msgSetAt topic partition) := by
  rcases TRequestContents.msgSetAt_cases result topic partition with stored | empty
  · exact (holds.sets _ _ _ stored).toSetContents
  · rw [empty]
    exact ⟨fun msg member => absurd member List.not_mem_nil, List.nil_sublist _, fun _ => rfl⟩

/-- One more message placed into its set. -/
theorem ResultHolds.add {compressionCodec : String → Bool} {placed : List TPartitionedMsg}
    {resultDataSize : Nat} {result : TRequestContents} {topic : String} {partition : Int}
    {msg : TPartitionedMsg} {newDataSize : Nat}
    (holds : ResultHolds conf compressionCodec placed resultDataSize result)
    (keyed : msg.msg.topic = topic ∧ msg.partition = partition)
    (sized : compressionCodec topic = true →
      newDataSize = (result.msgSetAt topic partition).dataSize + msg.msg.keyAndValueSize + conf.singleMsgOverhead)
    (bounded : compressionCodec topic = true →
      (result.msgSetAt topic partition).contents = [] ∨ newDataSize ≤ conf.messageMaxBytes) :
    ResultHolds conf compressionCodec (placed ++ [msg]) (resultDataSize + msg.msg.keyAndValueSize)
      (result.update topic partition fun msgSet => msgSet.add (compressionCodec topic) newDataSize msg) where
  sized := by simp [holds.sized]
  msgs := (TRequestContents.msgs_update_perm result topic partition fun _ => List.Perm.refl _).trans
    (holds.msgs.append_right [msg])
  groups := fun entry member => (TRequestContents.groups_update member).elim (holds.groups entry) id
  sets := by
    intro other otherPartition msgSet stored
    rcases TRequestContents.msgSetIn_update stored with old | ⟨rfl, rfl, rfl⟩
    · exact (holds.sets _ _ _ old).append [msg]
    · exact (holds.msgSetAt other otherPartition).add keyed sized bounded

theorem TopicDataHolds.start (start : String → TTopicData) (topic : String) :
    TopicDataHolds conf start [] topic (start topic) :=
  ⟨rfl, rfl, by simp, id⟩

/-- Choosing a partition keeps the data of the topic as they stand. -/
theorem TopicDataHolds.choose {start : String → TTopicData} {placed : List TPartitionedMsg} {topic : String}
    {topicData topicData' : TTopicData} {msg msg' : TPartitionedMsg}
    (holds : TopicDataHolds conf start placed topic topicData)
    (chosen : choosePartition conf topic topicData msg = .ok (msg', topicData')) :
    TopicDataHolds conf start placed topic topicData' := by
  obtain ⟨-, codec, count, used, -⟩ := choosePartition_frame conf chosen
  exact ⟨codec.trans holds.compressionCodec, count.trans holds.count, used.trans holds.used,
    fun current => (choosePartition_current conf (holds.current current) chosen).1⟩

/-- Placing a message of the topic uses the choice when it is an AnyPartition one. -/
theorem TopicDataHolds.use {start : String → TTopicData} {placed : List TPartitionedMsg} {topic : String}
    {topicData : TTopicData} {msg : TPartitionedMsg} (holds : TopicDataHolds conf start placed topic topicData)
    (own : msg.msg.topic = topic) : TopicDataHolds conf start (placed ++ [msg]) topic (useChoice msg topicData) := by
  refine ⟨by simp [holds.compressionCodec], by simp [holds.count], ?_, fun current => ?_⟩
  · rw [useChoice_choiceUsed, holds.used]
    simp [isAnyPartitionOf, own, Bool.or_assoc]
  · intro partition cached
    rw [useChoice_count]
    exact holds.current current partition (by rwa [useChoice_choice] at cached)

/-- Messages of other topics leave the data of `topic` as they stand. -/
theorem TopicDataHolds.append_other {start : String → TTopicData} {placed : List TPartitionedMsg} {topic : String}
    {topicData : TTopicData} (holds : TopicDataHolds conf start placed topic topicData) {more : List TPartitionedMsg}
    (others : ∀ msg ∈ more, msg.msg.topic ≠ topic) : TopicDataHolds conf start (placed ++ more) topic topicData := by
  have none : more.any (isAnyPartitionOf topic) = false := by
    rw [List.any_eq_false]
    intro msg member
    simp [isAnyPartitionOf, others msg member]
  exact { holds with used := by rw [holds.used, List.any_append, none, Bool.or_false] }

theorem ChosenFrom.nil (start : String → TTopicData) : ChosenFrom conf start [] :=
  fun _ member => absurd member List.not_mem_nil

theorem ChosenFrom.add {start : String → TTopicData} {placed : List TPartitionedMsg} {topic : String}
    {topicData topicData' : TTopicData} {msg msg' : TPartitionedMsg} (chosenBefore : ChosenFrom conf start placed)
    (holds : TopicDataHolds conf start placed topic topicData)
    (chosen : choosePartition conf topic topicData msg = .ok (msg', topicData')) (own : msg.msg.topic = topic) :
    ChosenFrom conf start (placed ++ [msg']) := by
  have same := (choosePartition_frame conf chosen).1
  intro other member any current
  rcases List.mem_append.mp member with old | added
  · exact chosenBefore other old any current
  · -- the new message got the entry of the count, which the request has not moved
    rw [List.mem_singleton.mp added] at any current ⊢
    rw [same] at any current ⊢
    rw [own] at current ⊢
    have got := (choosePartition_current conf (holds.current current) chosen).2 any
    rwa [holds.count] at got

/-- One step of the inner loop keeps its invariant: a refused message leaves
the result, and a taken one is placed. -/
theorem tryConsumeFrontMsg_holds {start : String → TTopicData} {placed : List TPartitionedMsg} {topic : String}
    {state state' : TBuildState} {msg msg' : TPartitionedMsg} {consumed : Bool}
    (holds : BatchHolds conf start placed topic state) (own : msg.msg.topic = topic)
    (tried : tryConsumeFrontMsg conf topic state msg = .ok (consumed, msg', state')) :
    msg'.msg = msg.msg ∧
      (consumed = false → BatchHolds conf start placed topic state' ∧
        state'.resultDataSize = state.resultDataSize) ∧
      (consumed = true → BatchHolds conf start (placed ++ [msg']) topic state' ∧
        state'.resultDataSize ≤ conf.produceRequestDataLimit) := by
  obtain ⟨topicData, chosen, ⟨rfl, rfl⟩ | ⟨rfl, within, fits, rfl⟩⟩ := tryConsumeFrontMsg_cases conf tried
  · exact ⟨(choosePartition_frame conf chosen).1,
      fun _ => ⟨⟨holds.result, holds.topicData.choose chosen, holds.chosen⟩, rfl⟩, fun wrong => by cases wrong⟩
  · have same := (choosePartition_frame conf chosen).1
    have topicHolds := holds.topicData.choose chosen
    have own' : msg'.msg.topic = topic := by rw [same, own]
    have flag : topicData.compressionCodec = (start topic).compressionCodec := topicHolds.compressionCodec
    refine ⟨same, (fun wrong => by cases wrong), fun _ => ⟨⟨?_, topicHolds.use own', holds.chosen.add holds.topicData chosen own⟩, within⟩⟩
    rw [flag]
    exact holds.result.add ⟨own', rfl⟩ (fun _ => rfl) fun compressed => .inr (fits (flag ▸ compressed))

end Steps

/-! ### The loops -/

section Loops

variable {conf : TFactoryConf}

/-- The loop over one batch keeps its invariant.  It takes the front of the
batch; what is left starts with the message that did not fit, and is empty
exactly when the loop did not stop at one. -/
theorem consumeBatch_holds {start : String → TTopicData} {topic : String} {batch : List TPartitionedMsg} :
    ∀ {placed : List TPartitionedMsg} {state state' : TBuildState} {full : Bool} {left : List TPartitionedMsg},
      BatchHolds conf start placed topic state →
      consumeBatch conf topic batch state = .ok (full, left, state') →
      ∃ taken, (∀ msg ∈ taken, msg.msg.topic = topic) ∧
        batch.map TPartitionedMsg.msg = taken.map TPartitionedMsg.msg ++ left.map TPartitionedMsg.msg ∧
        (full = false ↔ left = []) ∧ BatchHolds conf start (placed ++ taken) topic state' ∧
        (state.resultDataSize ≤ conf.produceRequestDataLimit →
          state'.resultDataSize ≤ conf.produceRequestDataLimit) := by
  induction batch with
  | nil =>
      intro placed state state' full left holds batched
      cases batched
      exact ⟨[], by simp, by simp, by simp, by simpa using holds, id⟩
  | cons msg rest inductionHypothesis =>
      intro placed state state' full left holds batched
      unfold consumeBatch at batched
      split at batched
      · cases batched
      · rename_i own
        obtain ⟨⟨consumed, msg', state₁⟩, tried, batched⟩ := bind_eq_ok batched
        obtain ⟨same, refused, taken⟩ := tryConsumeFrontMsg_holds holds (not_not.mp own) tried
        cases consumed with
        | false =>
            -- the front message did not fit: it stays, with its partition
            cases batched
            obtain ⟨holds₁, sized⟩ := refused rfl
            exact ⟨[], by simp, by simp [same], by simp, by simpa using holds₁, fun within => sized ▸ within⟩
        | true =>
            obtain ⟨holds₁, within₁⟩ := taken rfl
            obtain ⟨more, own', split, ended, holds₂, sized⟩ := inductionHypothesis holds₁ batched
            refine ⟨msg' :: more, ?_, ?_, ended, by simpa using holds₂, fun _ => sized within₁⟩
            · intro other member
              rcases List.mem_cons.mp member with rfl | later
              · rw [same]
                exact not_not.mp own
              · exact own' other later
            · simp [same, split]

/-- The queue loop's invariant starts the loop over a batch of `topic`. -/
theorem QueueHolds.toBatch {start : String → TTopicData} {placed : List TPartitionedMsg}
    {topicDataMap : String → TTopicData} {resultDataSize : Nat} {result : TRequestContents}
    (holds : QueueHolds conf start placed topicDataMap resultDataSize result) (topic : String) :
    BatchHolds conf start placed topic ⟨topicDataMap topic, resultDataSize, result⟩ :=
  ⟨holds.result, holds.topicData topic, holds.chosen⟩

/-- A batch's loop, run from the queue loop's invariant, leaves it with the
batch's topic data written back. -/
theorem QueueHolds.batch {start : String → TTopicData} {placed : List TPartitionedMsg}
    {topicDataMap : String → TTopicData} {resultDataSize : Nat} {result : TRequestContents} {topic : String}
    {batch left : List TPartitionedMsg} {full : Bool} {state' : TBuildState}
    (holds : QueueHolds conf start placed topicDataMap resultDataSize result)
    (batched : consumeBatch conf topic batch ⟨topicDataMap topic, resultDataSize, result⟩ = .ok (full, left, state')) :
    ∃ taken, batch.map TPartitionedMsg.msg = taken.map TPartitionedMsg.msg ++ left.map TPartitionedMsg.msg ∧
      (full = false ↔ left = []) ∧
      QueueHolds conf start (placed ++ taken) (Function.update topicDataMap topic state'.topicData)
        state'.resultDataSize state'.result ∧
      (resultDataSize ≤ conf.produceRequestDataLimit → state'.resultDataSize ≤ conf.produceRequestDataLimit) := by
  obtain ⟨taken, own, split, ended, holds', sized⟩ :=
    consumeBatch_holds (holds.toBatch topic) batched
  refine ⟨taken, split, ended, ⟨holds'.result, fun other => ?_, holds'.chosen⟩, sized⟩
  by_cases same : other = topic
  · subst same
    rw [Function.update_self]
    exact holds'.topicData
  · -- the batch holds messages of its own topic only
    rw [Function.update_of_ne same]
    exact (holds.topicData other).append_other fun msg member => (own msg member).trans_ne (Ne.symm same)

/-- The loop over the queue keeps its invariant, and what it took is the
front of the queue. -/
theorem consumeQueue_holds {start : String → TTopicData} {batches : List (List TPartitionedMsg)} :
    ∀ {placed : List TPartitionedMsg} {topicDataMap topicDataMap' : String → TTopicData}
      {resultDataSize resultDataSize' : Nat} {result result' : TRequestContents}
      {batches' : List (List TPartitionedMsg)},
      QueueHolds conf start placed topicDataMap resultDataSize result →
      consumeQueue conf batches topicDataMap resultDataSize result =
        .ok (batches', topicDataMap', resultDataSize', result') →
      ∃ taken, TakenFrom (queuedMsgs batches) (queuedMsgs batches') (taken.map TPartitionedMsg.msg) ∧
        QueueHolds conf start (placed ++ taken) topicDataMap' resultDataSize' result' ∧
        (resultDataSize ≤ conf.produceRequestDataLimit → resultDataSize' ≤ conf.produceRequestDataLimit) := by
  induction batches with
  | nil =>
      intro placed topicDataMap topicDataMap' resultDataSize resultDataSize' result result' batches' holds consumed
      cases consumed
      exact ⟨[], TakenFrom.refl _, by simpa using holds, id⟩
  | cons batch batches inductionHypothesis =>
      intro placed topicDataMap topicDataMap' resultDataSize resultDataSize' result result' batches' holds consumed
      cases batch with
      | nil => cases consumed
      | cons msg rest =>
          unfold consumeQueue at consumed
          obtain ⟨⟨full, left, state⟩, batched, consumed⟩ := bind_eq_ok consumed
          obtain ⟨taken, split, ended, holds₁, sized⟩ := holds.batch batched
          cases full with
          | true =>
              -- stopped inside the batch: the rest of it stays in front
              cases consumed
              refine ⟨taken, ?_, holds₁, sized⟩
              have front := TakenFrom.front (taken.map TPartitionedMsg.msg) (left.map TPartitionedMsg.msg)
                (queuedMsgs batches)
              rwa [← split] at front
          | false =>
              -- the batch is used up and leaves the queue
              have used : left = [] := ended.mp rfl
              rw [used, List.map_nil, List.append_nil] at split
              obtain ⟨more, taken', holds₂, sized'⟩ := inductionHypothesis holds₁ consumed
              refine ⟨taken ++ more, ?_, by simpa using holds₂, fun within => sized' (sized within)⟩
              rw [List.map_append]
              show TakenFrom ((msg :: rest).map TPartitionedMsg.msg :: queuedMsgs batches) _ _
              rw [split]
              exact (TakenFrom.batch _ _).trans taken'

end Loops

/-! ### The request -/

section Request

variable {conf : TFactoryConf}

/-- `AddFirstMsg` on the empty result takes the front message and starts the
invariant of the queue loop with it. -/
theorem addFirstMsg_holds {factory factory₁ : TProduceRequestFactory} {firstSize : Nat}
    {result₁ : TRequestContents} (added : addFirstMsg conf factory OrderedMap.empty = .ok (firstSize, factory₁, result₁)) :
    ∃ msg', TakenFrom (queuedMsgs factory.inputQueue) (queuedMsgs factory₁.inputQueue) [msg'.msg] ∧
      QueueHolds conf factory.topicDataMap [msg'] factory₁.topicDataMap firstSize result₁ := by
  obtain ⟨msg, rest, batches, msg', topicData, queue, chosen, rfl, queue₁, map₁, rfl⟩ := addFirstMsg_cases conf added
  have same := (choosePartition_frame conf chosen).1
  have topicHolds := (TopicDataHolds.start factory.topicDataMap msg.msg.topic).choose chosen
  have flag : topicData.compressionCodec = (factory.topicDataMap msg.msg.topic).compressionCodec :=
    topicHolds.compressionCodec
  refine ⟨msg', ?_, ⟨?_, fun topic => ?_, ?_⟩⟩
  · -- the first message leaves its batch, or the whole batch when it was alone
    rw [queue, queue₁, same]
    by_cases alone : rest = []
    · subst alone
      exact TakenFrom.batch _ _
    · rw [if_neg alone]
      exact TakenFrom.front [msg.msg] (rest.map TPartitionedMsg.msg) _
  · rw [flag]
    -- the first message, placed into the empty result
    have first : ResultHolds conf (fun topic => (factory.topicDataMap topic).compressionCodec) ([] ++ [msg'])
        (0 + msg'.msg.keyAndValueSize)
        (TRequestContents.update OrderedMap.empty msg.msg.topic msg'.partition fun msgSet =>
          msgSet.add (factory.topicDataMap msg.msg.topic).compressionCodec
            (msg'.msg.keyAndValueSize + conf.singleMsgOverhead) msg') :=
      (ResultHolds.empty _).add ⟨by rw [same], rfl⟩
        (fun _ => by simp [TRequestContents.msgSetAt, OrderedMap.find_empty]) (fun _ => .inl rfl)
    simpa using first
  · rw [map₁]
    by_cases own : topic = msg.msg.topic
    · subst own
      rw [Function.update_self]
      exact topicHolds.use (by rw [same])
    · rw [Function.update_of_ne own]
      exact (TopicDataHolds.start factory.topicDataMap topic).append_other fun other member => by
        rw [List.mem_singleton.mp member, same]
        exact Ne.symm own
  · exact (ChosenFrom.nil factory.topicDataMap).add (TopicDataHolds.start factory.topicDataMap msg.msg.topic)
      chosen rfl

/-- What a built request is: the messages `placed` were taken off the front
of the queue, the loops' invariant holds of them, the data limit was kept
unless the first message is alone, and the choosers of the result's topics
were cleared. -/
theorem buildRequestContents_cases {factory factory' : TProduceRequestFactory} {result : TRequestContents}
    (built : buildRequestContents conf factory = .ok (result, factory')) :
    ∃ placed topicDataMap resultDataSize, placed ≠ [] ∧
      TakenFrom (queuedMsgs factory.inputQueue) (queuedMsgs factory'.inputQueue) (placed.map TPartitionedMsg.msg) ∧
      QueueHolds conf factory.topicDataMap placed topicDataMap resultDataSize result ∧
      (placed.length = 1 ∨ resultDataSize ≤ conf.produceRequestDataLimit) ∧
      factory'.topicDataMap = clearChoices (KeyedList.keys result.entries) topicDataMap := by
  unfold buildRequestContents at built
  obtain ⟨⟨firstSize, factory₁, result₁⟩, added, built⟩ := bind_eq_ok built
  obtain ⟨msg', firstTaken, first⟩ := addFirstMsg_holds added
  dsimp only at built
  split at built
  · -- the first message left room: the loop ran, within the data limit
    rename_i room
    obtain ⟨⟨queue₂, map₂, size₂, result₂⟩, looped, built⟩ := bind_eq_ok built
    obtain ⟨-, -, done⟩ := bind_eq_ok built
    cases done
    obtain ⟨taken, takenFrom, holds, sized⟩ := consumeQueue_holds first looped
    exact ⟨msg' :: taken, map₂, size₂, List.cons_ne_nil _ _, firstTaken.trans takenFrom, holds,
      .inr (sized room.le), rfl⟩
  · obtain ⟨⟨queue₂, map₂, size₂, result₂⟩, looped, built⟩ := bind_eq_ok built
    cases looped
    obtain ⟨-, -, done⟩ := bind_eq_ok built
    cases done
    exact ⟨[msg'], factory₁.topicDataMap, firstSize, List.cons_ne_nil _ _, firstTaken, first, .inl rfl, rfl⟩

/-- One step of the inner loop does not fault when the message fits in a
message set by itself and has a partition to choose from. -/
theorem tryConsumeFrontMsg_progress {start : String → TTopicData} {placed : List TPartitionedMsg}
    {topic : String} {state : TBuildState} {msg : TPartitionedMsg} (holds : BatchHolds conf start placed topic state)
    (fit : msg.msg.keyAndValueSize + conf.singleMsgOverhead ≤ conf.messageMaxBytes)
    (choices : msg.msg.routingType = .anyPartition → conf.partitionChoices topic ≠ []) :
    ∃ outcome, tryConsumeFrontMsg conf topic state msg = .ok outcome := by
  obtain ⟨msg', topicData, chosen⟩ := choosePartition_progress conf topic state.topicData msg choices
  have same := (choosePartition_frame conf chosen).1
  have flag : topicData.compressionCodec = (start topic).compressionCodec :=
    (holds.topicData.choose chosen).compressionCodec
  have set := holds.result.msgSetAt topic msg'.partition
  unfold tryConsumeFrontMsg
  rw [chosen]
  simp only [ok_bind, TRequestContents.msgSetAt_update, and_self, if_true, id]
  split
  · exact ⟨_, rfl⟩
  · split
    · -- past `MessageMaxBytes`: the message alone fits, so the set has messages and a size
      rename_i pastMax
      rw [if_neg]
      · exact ⟨_, rfl⟩
      have sized := set.sized (flag ▸ pastMax.1)
      rw [same] at pastMax
      rintro (empty | zero)
      · rw [empty] at sized
        simp only [List.map_nil, List.sum_nil] at sized
        omega
      · omega
    · exact ⟨_, rfl⟩

/-- The loop over one batch of single-topic messages that fit does not fault. -/
theorem consumeBatch_progress {start : String → TTopicData} {topic : String} {batch : List TPartitionedMsg}
    (own : ∀ msg ∈ batch, msg.msg.topic = topic)
    (fit : ∀ msg ∈ batch, msg.msg.keyAndValueSize + conf.singleMsgOverhead ≤ conf.messageMaxBytes)
    (choices : ∀ msg ∈ batch, msg.msg.routingType = .anyPartition → conf.partitionChoices topic ≠ []) :
    ∀ {placed : List TPartitionedMsg} {state : TBuildState}, BatchHolds conf start placed topic state →
      ∃ outcome, consumeBatch conf topic batch state = .ok outcome := by
  induction batch with
  | nil => exact fun _ => ⟨_, rfl⟩
  | cons msg rest inductionHypothesis =>
      intro placed state holds
      have ownFront := own msg List.mem_cons_self
      obtain ⟨⟨consumed, msg', state₁⟩, tried⟩ :=
        tryConsumeFrontMsg_progress holds (fit msg List.mem_cons_self) (choices msg List.mem_cons_self)
      obtain ⟨-, -, taken⟩ := tryConsumeFrontMsg_holds holds ownFront tried
      unfold consumeBatch
      rw [if_neg (not_not.mpr ownFront), tried]
      simp only [ok_bind]
      cases consumed with
      | false => exact ⟨_, rfl⟩
      | true =>
          exact inductionHypothesis (fun other member => own other (List.mem_cons_of_mem _ member))
            (fun other member => fit other (List.mem_cons_of_mem _ member))
            (fun other member => choices other (List.mem_cons_of_mem _ member)) (taken rfl).1

/-- What the router hands the factory: nonempty batches of one topic each,
of messages that fit a message set by themselves and have a partition to
choose from. -/
structure QueueFits (conf : TFactoryConf) (queue : List (List TPartitionedMsg)) : Prop where
  batches : ∀ batch ∈ queue, batch ≠ [] ∧ ∀ msg ∈ batch, ∀ other ∈ batch, msg.msg.topic = other.msg.topic
  fit : ∀ batch ∈ queue, ∀ msg ∈ batch, msg.msg.keyAndValueSize + conf.singleMsgOverhead ≤ conf.messageMaxBytes
  choices : ∀ batch ∈ queue, ∀ msg ∈ batch, msg.msg.routingType = .anyPartition →
    conf.partitionChoices msg.msg.topic ≠ []

theorem QueueFits.tail {batch : List TPartitionedMsg} {queue : List (List TPartitionedMsg)}
    (fits : QueueFits conf (batch :: queue)) : QueueFits conf queue :=
  ⟨fun other member => fits.batches other (List.mem_cons_of_mem _ member),
    fun other member => fits.fit other (List.mem_cons_of_mem _ member),
    fun other member => fits.choices other (List.mem_cons_of_mem _ member)⟩

/-- The queue loop on such a queue does not fault. -/
theorem consumeQueue_progress {start : String → TTopicData} {batches : List (List TPartitionedMsg)}
    (fits : QueueFits conf batches) :
    ∀ {placed : List TPartitionedMsg} {topicDataMap : String → TTopicData} {resultDataSize : Nat}
      {result : TRequestContents}, QueueHolds conf start placed topicDataMap resultDataSize result →
      ∃ outcome, consumeQueue conf batches topicDataMap resultDataSize result = .ok outcome := by
  induction batches with
  | nil => exact fun _ => ⟨_, rfl⟩
  | cons batch batches inductionHypothesis =>
      intro placed topicDataMap resultDataSize result holds
      obtain ⟨nonempty, single⟩ := fits.batches batch List.mem_cons_self
      obtain ⟨msg, rest, rfl⟩ := List.exists_cons_of_ne_nil nonempty
      -- every message of the batch has the topic of its first
      have own : ∀ other ∈ msg :: rest, other.msg.topic = msg.msg.topic :=
        fun other member => single other member msg List.mem_cons_self
      obtain ⟨⟨full, left, state⟩, batched⟩ := consumeBatch_progress own (fits.fit _ List.mem_cons_self)
        (fun other member any => own other member ▸ fits.choices _ List.mem_cons_self other member any)
        (holds.toBatch msg.msg.topic)
      obtain ⟨taken, -, -, holds₁, -⟩ := holds.batch batched
      unfold consumeQueue
      simp only [batched, ok_bind]
      cases full with
      | true => exact ⟨_, rfl⟩
      | false => exact inductionHypothesis fits.tail holds₁

/-- The check at the end passes on a result that keeps the invariant. -/
theorem ResultHolds.sanityCheck {compressionCodec : String → Bool} {placed : List TPartitionedMsg}
    {resultDataSize : Nat} {result : TRequestContents}
    (holds : ResultHolds conf compressionCodec placed resultDataSize result) :
    sanityCheckRequestContents result = .ok () :=
  sanityCheckRequestContents_ok holds.groups fun topic partition msgSet stored =>
    (holds.sets topic partition msgSet stored).nonempty

/-- On a nonempty queue that the router could have handed over,
`BuildRequestContents` does not fault. -/
theorem buildRequestContents_progress {factory : TProduceRequestFactory} (queued : factory.inputQueue ≠ [])
    (fits : QueueFits conf factory.inputQueue) :
    ∃ result factory', buildRequestContents conf factory = .ok (result, factory') := by
  obtain ⟨batch, batches, queue⟩ := List.exists_cons_of_ne_nil queued
  obtain ⟨nonempty, -⟩ := fits.batches batch (queue ▸ List.mem_cons_self)
  obtain ⟨msg, rest, rfl⟩ := List.exists_cons_of_ne_nil nonempty
  have inQueue : msg :: rest ∈ factory.inputQueue := queue ▸ List.mem_cons_self
  obtain ⟨⟨firstSize, factory₁, result₁⟩, added⟩ :=
    addFirstMsg_progress conf queue (fits.choices _ inQueue msg List.mem_cons_self)
  obtain ⟨msg', -, first⟩ := addFirstMsg_holds added
  -- what is left of the queue is the rest of the first batch and the batches after it
  have fits₁ : QueueFits conf factory₁.inputQueue := by
    obtain ⟨_, _, _, _, _, queue', -, -, queue₁, -, -⟩ := addFirstMsg_cases conf added
    rw [queue, List.cons.injEq, List.cons.injEq] at queue'
    obtain ⟨⟨rfl, rfl⟩, rfl⟩ := queue'
    rw [queue] at fits
    rw [queue₁]
    split
    · exact fits.tail
    · refine ⟨fun other member => ?_, fun other member => ?_, fun other member => ?_⟩ <;>
        rcases List.mem_cons.mp member with rfl | later
      · exact ⟨by assumption, fun one oneIn two twoIn => (fits.batches _ List.mem_cons_self).2 one
          (List.mem_cons_of_mem _ oneIn) two (List.mem_cons_of_mem _ twoIn)⟩
      · exact fits.tail.batches other later
      · exact fun one oneIn => fits.fit _ List.mem_cons_self one (List.mem_cons_of_mem _ oneIn)
      · exact fits.tail.fit other later
      · exact fun one oneIn => fits.choices _ List.mem_cons_self one (List.mem_cons_of_mem _ oneIn)
      · exact fits.tail.choices other later
  unfold buildRequestContents
  simp only [added, ok_bind]
  split
  · obtain ⟨⟨queue₂, map₂, size₂, result₂⟩, looped⟩ := consumeQueue_progress fits₁ first
    obtain ⟨taken, -, holds, -⟩ := consumeQueue_holds first looped
    have sane := holds.result.sanityCheck
    simp only [looped, ok_bind, sane]
    exact ⟨_, _, rfl⟩
  · have sane := first.result.sanityCheck
    simp only [pure_bind, sane]
    exact ⟨_, _, rfl⟩

end Request

/-! ### What a request holds -/

/-- `BuildRequestContents` on a queue the router could have handed over takes
a nonempty front of the queue and leaves the rest in its batches; the request
stays within the data limit unless it is the first message alone; every
message set lists its messages in queue order, and no set or topic group is
empty; and a compressed topic's sets are sized by their messages and stay
within `MessageMaxBytes` unless alone. -/
theorem buildRequestContents_takes_front (conf : TFactoryConf) (factory : TProduceRequestFactory)
    (queued : factory.inputQueue ≠ []) (fits : QueueFits conf factory.inputQueue) :
    ∃ result factory' taken, buildRequestContents conf factory = .ok (result, factory') ∧
      taken ≠ [] ∧ TakenFrom (queuedMsgs factory.inputQueue) (queuedMsgs factory'.inputQueue) taken ∧
      (result.msgs.map TPartitionedMsg.msg).Perm taken ∧
      (taken.length = 1 ∨ (taken.map TMsg.keyAndValueSize).sum ≤ conf.produceRequestDataLimit) ∧
      (∀ entry ∈ result.entries, entry.2.entries ≠ []) ∧
      ∀ topic partition msgSet, result.MsgSetIn topic partition msgSet →
        msgSet.contents ≠ [] ∧ (msgSet.contents.map TPartitionedMsg.msg).Sublist taken ∧
        (∀ msg ∈ msgSet.contents, msg.msg.topic = topic ∧ msg.partition = partition) ∧
        ((factory.topicDataMap topic).compressionCodec = true →
          msgSet.dataSize = (msgSet.contents.map fun msg => msg.msg.keyAndValueSize + conf.singleMsgOverhead).sum ∧
          (msgSet.contents.length = 1 ∨ msgSet.dataSize ≤ conf.messageMaxBytes)) := by
  obtain ⟨result, factory', built⟩ := buildRequestContents_progress queued fits
  obtain ⟨placed, topicDataMap, resultDataSize, nonempty, taken, holds, bounded, -⟩ :=
    buildRequestContents_cases built
  refine ⟨result, factory', placed.map TPartitionedMsg.msg, built, by simpa using nonempty, taken,
    holds.result.msgs.map _, ?_, holds.result.groups, fun topic partition msgSet stored => ?_⟩
  · -- the data size counted is the size of the placed messages
    rw [List.length_map, List.map_map]
    exact bounded.imp_right fun within => holds.result.sized ▸ within
  · have set := holds.result.sets topic partition msgSet stored
    exact ⟨set.nonempty, set.ordered.map _, set.keyed, fun compressed => ⟨set.sized compressed, set.bounded compressed⟩⟩

/-- Limits under which a message of 95 bytes does not fit a compressed
message set by itself. -/
def smallSetConf : TFactoryConf :=
  { produceRequestDataLimit := 1000, messageMaxBytes := 100, singleMsgOverhead := 10,
    partitionChoices := fun _ => [0] }

/-- Two batches of one message each, the second of 95 bytes. -/
def oversizedMsgQueue : List (List TPartitionedMsg) :=
  [[⟨{ routingType := .partitionKey, timestamp := 0, topic := "a", keyAndValueSize := 5 }, 0⟩],
   [⟨{ routingType := .partitionKey, timestamp := 0, topic := "b", keyAndValueSize := 95 }, 0⟩]]

/-- With topic `b` compressed, `TryConsumeFrontMsg` creates `b`'s message set,
finds that the message would take it past `MessageMaxBytes`, and asserts
that the new set is not empty.  The router's `ValidateNewMsg` discards such
a message before it is routed (`TRouterThread.validateFoundMsg`), so the
daemon never hands this queue to the factory. -/
theorem buildRequestContents_asserts_on_oversized_msg :
    (∀ batch ∈ oversizedMsgQueue, batch ≠ [] ∧ ∀ msg ∈ batch, ∀ other ∈ batch, msg.msg.topic = other.msg.topic) ∧
      buildRequestContents smallSetConf
          { inputQueue := oversizedMsgQueue, topicDataMap := fun topic => { compressionCodec := topic == "b" } } =
        .error .assertionFailure :=
  ⟨by decide, rfl⟩

/-- An AnyPartition message of a topic with no partition choice for the
broker: the factory relies on the router, which sends AnyPartition
messages only to a broker that leads an ok partition of their topic. -/
def noChoiceQueue : List (List TPartitionedMsg) :=
  [[⟨{ routingType := .anyPartition, timestamp := 0, topic := "a", keyAndValueSize := 5 }, 0⟩]]

/-- Without a partition choice, `TAnyPartitionChooser::Choose` takes
`Count % 0`, though every message fits a message set. -/
theorem buildRequestContents_divides_by_zero :
    (∀ batch ∈ noChoiceQueue, batch ≠ [] ∧ ∀ msg ∈ batch, ∀ other ∈ batch, msg.msg.topic = other.msg.topic) ∧
      (∀ batch ∈ noChoiceQueue, ∀ msg ∈ batch,
        msg.msg.keyAndValueSize + smallSetConf.singleMsgOverhead ≤ smallSetConf.messageMaxBytes) ∧
      buildRequestContents { smallSetConf with partitionChoices := fun _ => [] }
          { inputQueue := noChoiceQueue, topicDataMap := fun _ => { compressionCodec := false } } =
        .error .divisionByZero :=
  ⟨by decide, by decide, rfl⟩

/-- Batches of topics `a` and `b` whose messages fit a message set by
themselves. -/
def fittingQueue : List (List TPartitionedMsg) :=
  [[⟨{ routingType := .anyPartition, timestamp := 0, topic := "a", keyAndValueSize := 5 }, 0⟩,
    ⟨{ routingType := .anyPartition, timestamp := 0, topic := "a", keyAndValueSize := 7 }, 0⟩],
   [⟨{ routingType := .anyPartition, timestamp := 0, topic := "b", keyAndValueSize := 50 }, 0⟩,
    ⟨{ routingType := .partitionKey, timestamp := 0, topic := "b", keyAndValueSize := 40 }, 0⟩]]

theorem buildRequestContents_takes_front_of_fittingQueue :
    QueueFits smallSetConf fittingQueue ∧
      ∃ result factory', buildRequestContents smallSetConf
        { inputQueue := fittingQueue, topicDataMap := fun topic => { compressionCodec := topic == "b" } } =
          .ok (result, factory') :=
  have fits : QueueFits smallSetConf fittingQueue := ⟨by decide, by decide, by decide⟩
  have built := buildRequestContents_takes_front smallSetConf
    { inputQueue := fittingQueue, topicDataMap := fun topic => { compressionCodec := topic == "b" } } (by decide) fits
  ⟨fits, built.imp fun _ => Exists.imp fun _ ⟨_, done, _⟩ => done⟩

end Dory.MsgDispatch
