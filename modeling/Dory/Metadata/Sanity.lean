/-
Module: Dory.Metadata.Sanity
Purpose: What `TMetadata::SanityCheck` checks, and that every metadata a
  builder makes from calls that follow its protocol passes it.  `TopicSane`
  is the check of one topic (`SanityCheckOneTopic`): distinct partition IDs,
  leaders in range, `AllPartitions` the ok and out-of-service partitions
  sorted by ID, and one chunk of `TopicBrokerVec` per broker leading an ok
  partition, holding exactly that broker's ok partition IDs in ascending
  order.  `Sane` adds the global checks: the chunks of all topics tile
  `TopicBrokerVec`, a broker is in service exactly when it leads an ok
  partition, and the in-service brokers come first, `NumInServiceBrokers()`
  of them.  The builder keeps `Closed` between topics and `Open` while a
  topic takes partitions; `CloseTopic` moves from one to the other
  (`Open.closeTopic`), and `Build` renames the broker indexes one to one
  (`Closed.build`).  As in `Dory.Metadata`, asserts are not checked.
Trusted boundary: none
Main exports: TopicSane, TopicsSound, Sane, Closed, Open, chunkLoop_eq,
  Closed.openTopic, Open.addPartitionToTopic, Open.closeTopic, Closed.build
-/
import Dory.Metadata
import Dory.Foundation.Reindex

namespace Dory.TMetadata

open Dory.Foundation

/-! ### The checks -/

/-- The blocks `(offset, length)` of the chunks of all topics, topic after
topic. -/
def chunkBlocks (topics : List TTopic) : List (Nat × Nat) :=
  topics.flatMap fun topic =>
    topic.partitionChoiceMap.map fun entry => (entry.2.topicBrokerVecIndex, entry.2.topicBrokerVecNumItems)

/-- `SanityCheckOneTopic`, for a topic of metadata with `brokerCount`
brokers and the vector `topicBrokerVec`. -/
structure TopicSane (brokerCount : Nat) (topicBrokerVec : List Int) (topic : TTopic) : Prop where
  ids_nodup : ((topic.okPartitions ++ topic.outOfServicePartitions).map TPartition.id).Nodup
  brokerIndex_lt : ∀ p ∈ topic.okPartitions ++ topic.outOfServicePartitions, p.brokerIndex < brokerCount
  allPartitions_perm : topic.allPartitions.Perm (topic.okPartitions ++ topic.outOfServicePartitions)
  allPartitions_sorted : topic.allPartitions.Pairwise fun x y => x.id < y.id
  keys_nodup : (KeyedList.keys topic.partitionChoiceMap).Nodup
  mem_keys : ∀ brokerIndex, brokerIndex ∈ KeyedList.keys topic.partitionChoiceMap ↔
    ∃ p ∈ topic.okPartitions, p.brokerIndex = brokerIndex
  chunk_sorted : ∀ brokerIndex choices, (brokerIndex, choices) ∈ topic.partitionChoiceMap →
    (chunk topicBrokerVec choices).Pairwise (· < ·)
  mem_chunk : ∀ brokerIndex choices, (brokerIndex, choices) ∈ topic.partitionChoiceMap → ∀ id,
    id ∈ chunk topicBrokerVec choices ↔ ∃ p ∈ topic.okPartitions, p.brokerIndex = brokerIndex ∧ p.id = id

/-- The checks of the topics against the brokers and `TopicBrokerVec`: each
topic passes its own, their chunks tile the vector, and a broker is in
service exactly when it leads an ok partition of some topic. -/
structure TopicsSound (brokers : List TBroker) (topicBrokerVec : List Int) (topics : List TTopic) : Prop where
  topicSane : ∀ topic ∈ topics, TopicSane brokers.length topicBrokerVec topic
  tiles : Tiles 0 (chunkBlocks topics) topicBrokerVec.length
  inService : ∀ i (h : i < brokers.length),
    brokers[i].inService = true ↔ ∃ topic ∈ topics, ∃ p ∈ topic.okPartitions, p.brokerIndex = i
  vecLength : topicBrokerVec.length = (topics.map fun topic => topic.okPartitions.length).sum

/-- `TopicNameToIndex` sends distinct names to the topic indexes, in order. -/
structure NamesSound (topicNameToIndex : List (String × Nat)) (topicCount : Nat) : Prop where
  keys_nodup : (KeyedList.keys topicNameToIndex).Nodup
  indexes : topicNameToIndex.map Prod.snd = List.range topicCount

/-- `SanityCheck()`, and the distinct Kafka IDs the builder keeps. -/
structure Sane (metadata : TMetadata) : Prop where
  brokerIds_nodup : (metadata.brokers.map TBroker.id).Nodup
  names : NamesSound metadata.topicNameToIndex metadata.topics.length
  sound : TopicsSound metadata.brokers metadata.topicBrokerVec metadata.topics
  inServiceBrokerCount_le : metadata.inServiceBrokerCount ≤ metadata.brokers.length
  inService_prefix : ∀ i (h : i < metadata.brokers.length),
    metadata.brokers[i].inService = true ↔ i < metadata.inServiceBrokerCount

/-- Every slot of `TopicBrokerVec` is in exactly one chunk. -/
theorem Sane.count_covers {metadata : TMetadata} (sane : Sane metadata) {slot : Nat}
    (within : slot < metadata.topicBrokerVec.length) :
    ((chunkBlocks metadata.topics).filter (covers slot)).length = 1 :=
  sane.sound.tiles.count_covers (Nat.zero_le slot) within

/-! ### Small facts about the checks -/

theorem TopicSane.mono {brokerCount more : Nat} {topicBrokerVec : List Int} {topic : TTopic}
    (sane : TopicSane brokerCount topicBrokerVec topic) (le : brokerCount ≤ more) :
    TopicSane more topicBrokerVec topic :=
  { sane with brokerIndex_lt := fun p member => Nat.lt_of_lt_of_le (sane.brokerIndex_lt p member) le }

/-- A chunk inside the vector reads the same after more is appended. -/
theorem chunk_append_of_le {topicBrokerVec : List Int} {choices : TPartitionChoices} (more : List Int)
    (within : choices.topicBrokerVecIndex + choices.topicBrokerVecNumItems ≤ topicBrokerVec.length) :
    chunk (topicBrokerVec ++ more) choices = chunk topicBrokerVec choices := by
  simp only [chunk]
  rw [List.drop_append_of_le_length (by omega), List.take_append_of_le_length (by simp; omega)]

theorem mem_chunkBlocks {topics : List TTopic} {topic : TTopic} (member : topic ∈ topics)
    {brokerIndex : Nat} {choices : TPartitionChoices} (entry : (brokerIndex, choices) ∈ topic.partitionChoiceMap) :
    (choices.topicBrokerVecIndex, choices.topicBrokerVecNumItems) ∈ chunkBlocks topics :=
  List.mem_flatMap.mpr ⟨topic, member, List.mem_map.mpr ⟨_, entry, rfl⟩⟩

/-- A topic's chunks stay what they read as the vector grows at its end. -/
theorem TopicSane.append {brokerCount : Nat} {topicBrokerVec : List Int} {topics : List TTopic}
    {topic : TTopic} (member : topic ∈ topics) (tiles : Tiles 0 (chunkBlocks topics) topicBrokerVec.length)
    (sane : TopicSane brokerCount topicBrokerVec topic) (more : List Int) :
    TopicSane brokerCount (topicBrokerVec ++ more) topic := by
  have unchanged : ∀ brokerIndex choices, (brokerIndex, choices) ∈ topic.partitionChoiceMap →
      chunk (topicBrokerVec ++ more) choices = chunk topicBrokerVec choices := fun _ _ entry =>
    chunk_append_of_le more (tiles.within (mem_chunkBlocks member entry)).2
  exact { sane with
    chunk_sorted := fun b c entry => by rw [unchanged b c entry]; exact sane.chunk_sorted b c entry
    mem_chunk := fun b c entry => by rw [unchanged b c entry]; exact sane.mem_chunk b c entry }

/-! ### The broker map -/

/-- `BrokerMap` sends each broker's Kafka ID to its index, and nothing
else. -/
structure BrokerMapValid (brokerMap : List (Int × Nat)) (brokers : List TBroker) : Prop where
  keys_nodup : (KeyedList.keys brokerMap).Nodup
  mem_iff : ∀ id i, (id, i) ∈ brokerMap ↔ ∃ h : i < brokers.length, brokers[i].id = id

namespace BrokerMapValid

variable {brokerMap : List (Int × Nat)} {brokers : List TBroker}

/-- A broker map can only hold the IDs of the brokers. -/
theorem mem_keys_iff (valid : BrokerMapValid brokerMap brokers) (id : Int) :
    id ∈ KeyedList.keys brokerMap ↔ id ∈ brokers.map TBroker.id := by
  rw [KeyedList.mem_keys, List.mem_map]
  constructor
  · rintro ⟨i, member⟩
    obtain ⟨within, same⟩ := (valid.mem_iff id i).mp member
    exact ⟨brokers[i], List.getElem_mem within, same⟩
  · rintro ⟨broker, member, rfl⟩
    obtain ⟨i, within, rfl⟩ := List.getElem_of_mem member
    exact ⟨i, (valid.mem_iff _ i).mpr ⟨within, rfl⟩⟩

/-- What a lookup finds is the index of a broker of that ID. -/
theorem lookup_eq_some (valid : BrokerMapValid brokerMap brokers) {id : Int} {i : Nat}
    (found : brokerMap.lookup id = some i) : ∃ h : i < brokers.length, brokers[i].id = id :=
  (valid.mem_iff id i).mp (KeyedList.mem_of_lookup found)

theorem brokerIds_nodup (valid : BrokerMapValid brokerMap brokers) : (brokers.map TBroker.id).Nodup := by
  rw [List.nodup_iff_injective_get]
  intro i j same
  simp only [List.get_eq_getElem, List.getElem_map] at same
  have atI := (valid.mem_iff _ i).mpr ⟨by simpa using i.isLt, rfl⟩
  have atJ := (valid.mem_iff _ j).mpr ⟨by simpa using j.isLt, same.symm⟩
  exact Fin.ext (KeyedList.eq_of_mem valid.keys_nodup atI atJ)

/-- The map stays valid when the brokers change only in their service
flags. -/
theorem congr_ids {others : List TBroker} (valid : BrokerMapValid brokerMap brokers)
    (sameIds : others.map TBroker.id = brokers.map TBroker.id) : BrokerMapValid brokerMap others := by
  have sameLength : others.length = brokers.length := by simpa using congrArg List.length sameIds
  have idAt : ∀ i (inOthers : i < others.length) (inBrokers : i < brokers.length),
      others[i].id = brokers[i].id := by
    intro i inOthers inBrokers
    simpa [inOthers, inBrokers] using congrArg (fun ids : List Int => ids[i]?) sameIds
  refine ⟨valid.keys_nodup, fun id i => ?_⟩
  rw [valid.mem_iff]
  constructor
  · rintro ⟨within, same⟩
    exact ⟨sameLength ▸ within, (idAt i (sameLength ▸ within) within).trans same⟩
  · rintro ⟨within, same⟩
    exact ⟨sameLength ▸ within, (idAt i within (sameLength ▸ within)).symm.trans same⟩

end BrokerMapValid

/-! ### The builder between topics and inside one -/

/-- The builder between topics: the broker map is right, and the names and
the closed topics pass the checks. -/
structure Closed (builder : TBuilder) : Prop where
  brokerMap : BrokerMapValid builder.brokerMap builder.brokers
  names : NamesSound builder.topicNameToIndex builder.topics.length
  sound : TopicsSound builder.brokers builder.topicBrokerVec builder.topics

/-- The topic being filled: `CurrentTopicPartitions` records the IDs of its
partitions, which are distinct, its leaders are in range, and it has no
chunks yet. -/
structure Filling (brokerCount : Nat) (currentTopicPartitions : List Int) (topic : TTopic) : Prop where
  ids : ∀ id, id ∈ currentTopicPartitions ↔
    id ∈ (topic.okPartitions ++ topic.outOfServicePartitions).map TPartition.id
  ids_nodup : ((topic.okPartitions ++ topic.outOfServicePartitions).map TPartition.id).Nodup
  brokerIndex_lt : ∀ p ∈ topic.okPartitions ++ topic.outOfServicePartitions, p.brokerIndex < brokerCount
  partitionChoiceMap_nil : topic.partitionChoiceMap = []

/-- The builder inside a topic: the closed topics, then the one being
filled, which is the current topic. -/
structure Open (builder : TBuilder) (closedTopics : List TTopic) (topic : TTopic) : Prop where
  brokerMap : BrokerMapValid builder.brokerMap builder.brokers
  names : NamesSound builder.topicNameToIndex builder.topics.length
  topics_eq : builder.topics = closedTopics ++ [topic]
  currentTopicIndex_eq : builder.currentTopicIndex = closedTopics.length
  sound : TopicsSound builder.brokers builder.topicBrokerVec closedTopics
  filling : Filling builder.brokers.length builder.currentTopicPartitions topic

variable {builder : TBuilder}

theorem Closed.create (engine : TRandomEngine) : Closed { randomEngine := engine } where
  brokerMap := ⟨List.nodup_nil, fun _ _ => by simp⟩
  names := ⟨List.nodup_nil, rfl⟩
  sound := ⟨fun _ member => by simp at member, .nil 0, fun _ within => by simp at within, rfl⟩

/-- A new broker leads no partition yet, and so is out of service. -/
theorem Closed.addBroker (closed : Closed builder) (kafkaId : Int) (hostname : String) (port : UInt16) :
    Closed (builder.addBroker kafkaId hostname port) := by
  unfold TBuilder.addBroker
  split
  · exact closed
  · rename_i fresh
    let broker : TBroker := { id := kafkaId, hostname, port }
    have atOld : ∀ i (within : i < builder.brokers.length) (inNew : i < (builder.brokers ++ [broker]).length),
        (builder.brokers ++ [broker])[i] = builder.brokers[i] := fun i within _ =>
      List.getElem_append_left within
    refine ⟨⟨?_, fun id i => ?_⟩, closed.names, ?_⟩
    · rw [KeyedList.keys_append, KeyedList.keys_singleton]
      exact closed.brokerMap.keys_nodup.append (List.nodup_singleton _) (by simpa using fresh)
    · rw [List.mem_append, closed.brokerMap.mem_iff, List.mem_singleton, Prod.mk.injEq]
      constructor
      · rintro (⟨within, same⟩ | ⟨rfl, rfl⟩)
        · exact ⟨by simp; omega, by rw [atOld i within]; exact same⟩
        · exact ⟨by simp, by simp⟩
      · rintro ⟨within, same⟩
        by_cases old : i < builder.brokers.length
        · exact .inl ⟨old, by rw [← atOld i old within]; exact same⟩
        · have last : i = builder.brokers.length := by simp at within; omega
          subst last
          exact .inr ⟨by simpa [broker] using same.symm, rfl⟩
    · have sound := closed.sound
      refine ⟨fun topic member => (sound.topicSane topic member).mono (by simp), sound.tiles,
        fun i within => ?_, sound.vecLength⟩
      by_cases old : i < builder.brokers.length
      · rw [atOld i old within]
        exact sound.inService i old
      · -- the new broker: no partition can name it, every leader being older
        have last : i = builder.brokers.length := by simp at within; omega
        subst last
        simp only [List.getElem_append_right (Nat.le_refl _), Nat.sub_self, List.getElem_singleton,
          Bool.false_eq_true, false_iff]
        rintro ⟨topic, member, p, okMember, same⟩
        have := (sound.topicSane topic member).brokerIndex_lt p (List.mem_append_left _ okMember)
        omega

theorem TBuilder.openTopic_of_mem {name : String} (present : name ∈ KeyedList.keys builder.topicNameToIndex) :
    builder.openTopic name = (false, builder) :=
  if_pos present

/-- A new name opens a new empty topic, the current one. -/
theorem Closed.openTopic (closed : Closed builder) {name : String}
    (absent : name ∉ KeyedList.keys builder.topicNameToIndex) :
    builder.openTopic name = (true, { builder with
      topicNameToIndex := builder.topicNameToIndex ++ [(name, builder.topics.length)]
      currentTopicIndex := builder.topics.length
      topics := builder.topics ++ [{}]
      currentTopicPartitions := [] }) ∧
      Open (builder.openTopic name).2 builder.topics {} := by
  have opened : builder.openTopic name = _ := if_neg absent
  refine ⟨opened, ?_⟩
  rw [opened]
  exact {
    brokerMap := closed.brokerMap
    names := ⟨by simpa using closed.names.keys_nodup.append (List.nodup_singleton name) (by simpa using absent),
      by simp [closed.names.indexes, List.range_succ]⟩
    topics_eq := rfl
    currentTopicIndex_eq := rfl
    sound := closed.sound
    filling := ⟨fun _ => by simp, by simp, fun _ member => by simp at member, rfl⟩ }

theorem modify_append_length {α : Type} (front : List α) (last : α) (change : α → α) :
    (front ++ [last]).modify front.length change = front ++ [change last] := by
  induction front with
  | nil => simp
  | cons first rest ih => simp [ih]

/-- What a partition call does to the topic being filled, read off its
partitions: a partition of a known broker with an ID the topic has not had
is added. -/
def TTopic.addCall (brokerMap : List (Int × Nat)) (topic : TTopic) (call : TPartitionCall) : TTopic :=
  match brokerMap.lookup call.brokerId with
  | none => topic
  | some brokerIndex =>
      if call.partitionId ∈ (topic.okPartitions ++ topic.outOfServicePartitions).map TPartition.id then topic
      else topic.withPartition call.canSendToPartition
        { id := call.partitionId, brokerIndex, errorCode := call.errorCode }

theorem TTopic.perm_withPartition (canSendToPartition : Bool) (partition : TPartition) (topic : TTopic) :
    ((topic.withPartition canSendToPartition partition).okPartitions ++
      (topic.withPartition canSendToPartition partition).outOfServicePartitions).Perm
      (topic.okPartitions ++ topic.outOfServicePartitions ++ [partition]) := by
  cases canSendToPartition
  · simp [TTopic.withPartition]
  · simp only [TTopic.withPartition, if_true, List.append_assoc]
    exact List.Perm.append_left _ List.perm_append_comm

@[simp] theorem TTopic.partitionChoiceMap_withPartition (canSendToPartition : Bool) (partition : TPartition)
    (topic : TTopic) : (topic.withPartition canSendToPartition partition).partitionChoiceMap = topic.partitionChoiceMap := by
  cases canSendToPartition <;> rfl

namespace TBuilder

section PartitionCall

variable (partitionId brokerId : Int) (canSendToPartition : Bool) (errorCode : Int16)

@[simp] theorem brokerMap_addPartitionToTopic :
    (builder.addPartitionToTopic partitionId brokerId canSendToPartition errorCode).brokerMap = builder.brokerMap := by
  unfold addPartitionToTopic
  split
  · rfl
  · dsimp only
    split_ifs <;> rfl

@[simp] theorem brokers_addPartitionToTopic :
    (builder.addPartitionToTopic partitionId brokerId canSendToPartition errorCode).brokers = builder.brokers := by
  unfold addPartitionToTopic
  split
  · rfl
  · dsimp only
    split_ifs <;> rfl

@[simp] theorem topicBrokerVec_addPartitionToTopic :
    (builder.addPartitionToTopic partitionId brokerId canSendToPartition errorCode).topicBrokerVec =
      builder.topicBrokerVec := by
  unfold addPartitionToTopic
  split
  · rfl
  · dsimp only
    split_ifs <;> rfl

@[simp] theorem randomEngine_addPartitionToTopic :
    (builder.addPartitionToTopic partitionId brokerId canSendToPartition errorCode).randomEngine =
      builder.randomEngine := by
  unfold addPartitionToTopic
  split
  · rfl
  · dsimp only
    split_ifs <;> rfl

end PartitionCall

end TBuilder

/-- A partition call adds to the topic being filled what `TTopic.addCall`
says, and leaves the closed topics. -/
theorem Open.addPartitionToTopic {closedTopics : List TTopic} {topic : TTopic}
    (opened : Open builder closedTopics topic) (call : TPartitionCall) :
    Open (builder.addPartitionToTopic call.partitionId call.brokerId call.canSendToPartition call.errorCode)
      closedTopics (topic.addCall builder.brokerMap call) := by
  cases found : builder.brokerMap.lookup call.brokerId with
  | none =>
      simp only [TBuilder.addPartitionToTopic, TTopic.addCall, found]
      exact opened
  | some brokerIndex =>
    obtain ⟨within, -⟩ := opened.brokerMap.lookup_eq_some found
    have recorded := opened.filling.ids call.partitionId
    simp only [TBuilder.addPartitionToTopic, TTopic.addCall, found, if_neg (Nat.not_le.mpr within)]
    by_cases seen : call.partitionId ∈ builder.currentTopicPartitions
    · rw [if_pos seen, if_pos (recorded.mp seen)]
      exact opened
    · rw [if_neg seen, if_neg (fun member => seen (recorded.mpr member))]
      have current : builder.currentTopicIndex < builder.topics.length := by
        simp [opened.currentTopicIndex_eq, opened.topics_eq]
      rw [if_neg (Nat.not_le.mpr current)]
      let partition : TPartition := { id := call.partitionId, brokerIndex, errorCode := call.errorCode }
      have perm := TTopic.perm_withPartition call.canSendToPartition partition topic
      have idsPerm := perm.map TPartition.id
      refine {
        brokerMap := opened.brokerMap
        names := by simpa using opened.names
        topics_eq := by simp [opened.topics_eq, opened.currentTopicIndex_eq, modify_append_length]
        currentTopicIndex_eq := opened.currentTopicIndex_eq
        sound := opened.sound
        filling := ⟨fun id => ?_, ?_, fun p member => ?_, by simpa using opened.filling.partitionChoiceMap_nil⟩ }
      · rw [idsPerm.mem_iff]
        simp [opened.filling.ids id, partition, or_assoc]
      · rw [idsPerm.nodup_iff, List.map_append, List.nodup_append]
        refine ⟨opened.filling.ids_nodup, List.nodup_singleton _, ?_⟩
        simp only [List.map_cons, List.map_nil, List.mem_singleton]
        intro id member other isPartition same
        apply seen
        apply recorded.mpr
        rw [same, isPartition] at member
        exact member
      · rcases List.mem_append.mp (perm.subset member) with old | new
        · exact opened.filling.brokerIndex_lt p old
        · rw [List.mem_singleton.mp new]
          exact within

/-- The partition calls of a topic, one after another. -/
theorem Open.addPartitions {closedTopics : List TTopic} {topic : TTopic}
    (opened : Open builder closedTopics topic) (calls : List TPartitionCall) :
    Open (calls.foldl (fun builder call =>
        builder.addPartitionToTopic call.partitionId call.brokerId call.canSendToPartition call.errorCode) builder)
      closedTopics (calls.foldl (TTopic.addCall builder.brokerMap) topic) := by
  induction calls generalizing builder topic with
  | nil => exact opened
  | cons call rest ih =>
      have next := ih (opened.addPartitionToTopic call)
      simpa using next

/-! ### Closing a topic -/

instance : Std.Total TPartition.BrokerThenId :=
  ⟨fun x y => by unfold TPartition.BrokerThenId; omega⟩

instance : IsTrans TPartition TPartition.BrokerThenId :=
  ⟨fun x y z => by unfold TPartition.BrokerThenId; omega⟩

instance : Std.Total TPartition.ById :=
  ⟨fun x y => by unfold TPartition.ById; omega⟩

instance : IsTrans TPartition TPartition.ById :=
  ⟨fun x y z => by unfold TPartition.ById; omega⟩

/-- Sorted by a non-strict order on IDs that differ: sorted strictly. -/
theorem pairwise_id_lt {partitions : List TPartition} (sorted : partitions.Pairwise TPartition.ById)
    (distinct : (partitions.map TPartition.id).Nodup) : partitions.Pairwise fun x y => x.id < y.id :=
  (sorted.and (List.pairwise_map.mp distinct)).imp fun both => lt_of_le_of_ne both.1 both.2

/-- The brokers with those at the given indexes marked in service. -/
def markIn (indexes : List Nat) (brokers : List TBroker) : List TBroker :=
  brokers.mapIdx fun i broker => if i ∈ indexes then broker.markInService else broker

section MarkIn

variable {indexes : List Nat} {brokers : List TBroker}

@[simp] theorem length_markIn : (markIn indexes brokers).length = brokers.length :=
  List.length_mapIdx

theorem getElem?_markIn (i : Nat) :
    (markIn indexes brokers)[i]? = brokers[i]?.map fun broker =>
      if i ∈ indexes then broker.markInService else broker :=
  List.getElem?_mapIdx

/-- A broker is in service after marking when it was, or was marked. -/
theorem inService_markIn {i : Nat} (within : i < brokers.length) (marked : i < (markIn indexes brokers).length) :
    (markIn indexes brokers)[i].inService = (brokers[i].inService || decide (i ∈ indexes)) := by
  have atI : (markIn indexes brokers)[i]? = _ := getElem?_markIn i
  rw [List.getElem?_eq_getElem marked, List.getElem?_eq_getElem within, Option.map_some] at atI
  rw [Option.some.inj atI]
  by_cases member : i ∈ indexes <;> simp [member, TBroker.markInService]

/-- Marking keeps the Kafka IDs. -/
@[simp] theorem map_id_markIn : (markIn indexes brokers).map TBroker.id = brokers.map TBroker.id := by
  apply List.ext_getElem?
  intro i
  simp only [List.getElem?_map, getElem?_markIn, Option.map_map]
  congr 1
  funext broker
  by_cases member : i ∈ indexes <;> simp [member, TBroker.markInService]

/-- Marking depends only on which indexes are marked. -/
theorem markIn_congr {others : List Nat} (same : ∀ i, i ∈ indexes ↔ i ∈ others) :
    markIn indexes brokers = markIn others brokers := by
  apply List.ext_getElem?
  intro i
  simp only [getElem?_markIn, same]

/-- Marking one broker, then more: marking them all. -/
theorem markIn_markIn (more : List Nat) : markIn more (markIn indexes brokers) = markIn (indexes ++ more) brokers := by
  apply List.ext_getElem?
  intro i
  simp only [getElem?_markIn, Option.map_map]
  congr 1
  funext broker
  by_cases first : i ∈ indexes <;> by_cases second : i ∈ more <;> simp [first, second, TBroker.markInService]

theorem modify_markInService (i : Nat) : brokers.modify i TBroker.markInService = markIn [i] brokers := by
  apply List.ext_getElem?
  intro j
  rw [getElem?_markIn, List.getElem?_modify]
  by_cases same : i = j
  · subst same
    simp
  · simp [same, Ne.symm same]

@[simp] theorem markIn_nil : markIn [] brokers = brokers := by
  apply List.ext_getElem?
  intro i
  simp [getElem?_markIn]

end MarkIn

/-- The chunks `chunkLoop` records for runs laid from `start` on: one for
each nonempty run, under the broker index of its first partition. -/
def chunkLayout : Nat → List (List TPartition) → List (Nat × TPartitionChoices)
  | _, [] => []
  | start, [] :: runs => chunkLayout start runs
  | start, (first :: rest) :: runs =>
      (first.brokerIndex, ⟨start, rest.length + 1⟩) :: chunkLayout (start + (rest.length + 1)) runs

/-- The loop of `CloseTopic` records the layout of the runs, appends their
IDs and marks the brokers of the layout, when these are in range and new to
the map. -/
theorem chunkLoop_eq {state : TChunkState} {runs : List (List TPartition)}
    (valid : ∀ b ∈ KeyedList.keys (chunkLayout state.topicBrokerVec.length runs), b < state.brokers.length)
    (fresh : (KeyedList.keys (state.partitionChoiceMap ++ chunkLayout state.topicBrokerVec.length runs)).Nodup) :
    chunkLoop state runs = .ok
      { brokers := markIn (KeyedList.keys (chunkLayout state.topicBrokerVec.length runs)) state.brokers
        partitionChoiceMap := state.partitionChoiceMap ++ chunkLayout state.topicBrokerVec.length runs
        topicBrokerVec := state.topicBrokerVec ++ runs.flatten.map TPartition.id } := by
  induction runs generalizing state with
  | nil => simp [chunkLoop, chunkLayout]
  | cons run runs ih =>
      cases run with
      | nil => simpa [chunkLoop, chunkLayout] using ih valid fresh
      | cons first rest =>
          have inRange := valid first.brokerIndex (by simp [chunkLayout, KeyedList.keys])
          have validRest : ∀ b ∈ KeyedList.keys (chunkLayout (state.topicBrokerVec.length + (rest.length + 1)) runs),
              b < state.brokers.length := fun b member =>
            valid b (by simp only [chunkLayout, KeyedList.keys, List.map_cons, List.mem_cons] at member ⊢; exact .inr member)
          have absent : first.brokerIndex ∉ KeyedList.keys state.partitionChoiceMap := by
            intro present
            rw [KeyedList.keys_append, List.nodup_append] at fresh
            exact fresh.2.2 _ present _ (by simp [chunkLayout, KeyedList.keys]) rfl
          rw [chunkLoop, if_pos inRange, KeyedList.insert_of_not_mem absent]
          -- the rest of the loop starts where this run's IDs end
          have start : (state.topicBrokerVec ++ (first :: rest).map TPartition.id).length =
              state.topicBrokerVec.length + (rest.length + 1) := by simp
          rw [ih (by simpa [start] using validRest) (by simpa [start, chunkLayout, KeyedList.keys] using fresh), start]
          simp only [modify_markInService, markIn_markIn, chunkLayout, KeyedList.keys, List.map_cons,
            List.append_assoc, List.cons_append, List.nil_append, List.flatten_cons, List.map_append]

theorem mem_keys_chunkLayout {start : Nat} {runs : List (List TPartition)} {b : Nat} :
    b ∈ KeyedList.keys (chunkLayout start runs) ↔
      ∃ run ∈ runs, ∃ first rest, run = first :: rest ∧ first.brokerIndex = b := by
  induction runs generalizing start with
  | nil => simp [chunkLayout, KeyedList.keys]
  | cons run runs ih =>
      cases run with
      | nil => simp [chunkLayout, ih]
      | cons first rest =>
          simp only [chunkLayout, KeyedList.keys, List.map_cons, List.mem_cons] at ih ⊢
          rw [ih]
          constructor
          · rintro (same | ⟨other, member, first', rest', rfl, same⟩)
            · exact ⟨_, .inl rfl, first, rest, rfl, same.symm⟩
            · exact ⟨_, .inr member, first', rest', rfl, same⟩
          · rintro ⟨other, (rfl | member), first', rest', shape, same⟩
            · simp only [List.cons.injEq] at shape
              exact .inl (shape.1 ▸ same.symm)
            · exact .inr ⟨other, member, first', rest', shape, same⟩

/-- Runs in strictly increasing broker order get distinct chunks. -/
theorem nodup_keys_chunkLayout {start : Nat} {runs : List (List TPartition)}
    (ordered : runs.Pairwise fun first second => ∀ x ∈ first, ∀ y ∈ second, x.brokerIndex < y.brokerIndex) :
    (KeyedList.keys (chunkLayout start runs)).Nodup := by
  induction runs generalizing start with
  | nil => simp [chunkLayout, KeyedList.keys]
  | cons run runs ih =>
      rw [List.pairwise_cons] at ordered
      cases run with
      | nil => simpa [chunkLayout] using ih ordered.2
      | cons first rest =>
          simp only [chunkLayout, KeyedList.keys, List.map_cons, List.nodup_cons]
          refine ⟨fun member => ?_, ih ordered.2⟩
          obtain ⟨later, laterMember, head, tail, rfl, same⟩ :=
            mem_keys_chunkLayout.mp (show first.brokerIndex ∈ KeyedList.keys _ from member)
          have := ordered.1 _ laterMember first List.mem_cons_self head List.mem_cons_self
          omega

/-- Each chunk of the layout reads back the IDs of its run. -/
theorem chunk_of_mem_chunkLayout {topicBrokerVec : List Int} {runs : List (List TPartition)}
    {entry : Nat × TPartitionChoices} (member : entry ∈ chunkLayout topicBrokerVec.length runs) :
    ∃ run ∈ runs, ∃ first ∈ run, entry.1 = first.brokerIndex ∧
      chunk (topicBrokerVec ++ runs.flatten.map TPartition.id) entry.2 = run.map TPartition.id := by
  induction runs generalizing topicBrokerVec with
  | nil => simp [chunkLayout] at member
  | cons run runs ih =>
      cases run with
      | nil =>
          obtain ⟨found, foundMember, rest⟩ := ih (by simpa [chunkLayout] using member)
          exact ⟨found, List.mem_cons_of_mem _ foundMember, by simpa using rest⟩
      | cons first rest =>
          rw [chunkLayout, List.mem_cons] at member
          rcases member with rfl | later
          · refine ⟨first :: rest, List.mem_cons_self, first, List.mem_cons_self, rfl, ?_⟩
            simp [chunk]
          · -- a later run: its chunk starts after this run's IDs
            have start : (topicBrokerVec ++ (first :: rest).map TPartition.id).length =
                topicBrokerVec.length + (rest.length + 1) := by simp
            obtain ⟨found, foundMember, head, headMember, key, read⟩ := ih (start ▸ later)
            refine ⟨found, List.mem_cons_of_mem _ foundMember, head, headMember, key, ?_⟩
            simpa [List.append_assoc] using read

/-- The chunks of the layout lie end to end after `start`. -/
theorem tiles_chunkLayout (start : Nat) (runs : List (List TPartition)) :
    Tiles start ((chunkLayout start runs).map fun entry =>
        (entry.2.topicBrokerVecIndex, entry.2.topicBrokerVecNumItems)) (start + runs.flatten.length) := by
  induction runs generalizing start with
  | nil => simpa [chunkLayout] using Tiles.nil start
  | cons run runs ih =>
      cases run with
      | nil => simpa [chunkLayout] using ih start
      | cons first rest =>
          have tail := ih (start + (rest.length + 1))
          simp only [chunkLayout, List.map_cons]
          refine .cons (Nat.succ_pos _) ?_
          have stop : start + (rest.length + 1) + runs.flatten.length =
              start + ((first :: rest) :: runs).flatten.length := by
            simp only [List.flatten_cons, List.length_append, List.length_cons]
            omega
          rwa [stop] at tail

/-- The ok partitions in the order `CloseTopic` sorts them. -/
def TTopic.sortedOk (topic : TTopic) : List TPartition :=
  topic.okPartitions.insertionSort TPartition.BrokerThenId

theorem TTopic.perm_sortedOk (topic : TTopic) : topic.sortedOk.Perm topic.okPartitions :=
  List.perm_insertionSort _ _

theorem TTopic.pairwise_sortedOk (topic : TTopic) : topic.sortedOk.Pairwise TPartition.BrokerThenId :=
  List.pairwise_insertionSort _ _

theorem TTopic.pairwise_brokerIndex_sortedOk (topic : TTopic) :
    topic.sortedOk.Pairwise fun x y => x.brokerIndex ≤ y.brokerIndex :=
  topic.pairwise_sortedOk.imp fun before => by
    unfold TPartition.BrokerThenId at before
    omega

/-- The runs of the sorted ok partitions, one per broker, in increasing
broker order. -/
theorem TTopic.runs_sortedOk_ordered (topic : TTopic) :
    (runs TPartition.brokerIndex topic.sortedOk).Pairwise
      fun first second => ∀ x ∈ first, ∀ y ∈ second, x.brokerIndex < y.brokerIndex :=
  runs_pairwise_lt topic.pairwise_brokerIndex_sortedOk

/-- The brokers of the layout of the sorted ok partitions are those of the
ok partitions. -/
theorem TTopic.mem_keys_chunkLayout_sortedOk (topic : TTopic) (start b : Nat) :
    b ∈ KeyedList.keys (chunkLayout start (runs TPartition.brokerIndex topic.sortedOk)) ↔
      b ∈ topic.sortedOk.map TPartition.brokerIndex := by
  rw [mem_keys_chunkLayout, List.mem_map]
  constructor
  · rintro ⟨run, member, first, rest, rfl, rfl⟩
    exact ⟨first, (sublist_of_mem_runs member).subset List.mem_cons_self, rfl⟩
  · rintro ⟨p, member, rfl⟩
    rw [← flatten_runs TPartition.brokerIndex topic.sortedOk, List.mem_flatten] at member
    obtain ⟨run, runMember, inRun⟩ := member
    obtain ⟨first, rest, rfl⟩ := List.exists_cons_of_ne_nil (ne_nil_of_mem_runs runMember)
    exact ⟨_, runMember, first, rest, rfl, key_eq_of_mem_run runMember List.mem_cons_self inRun⟩

/-- The topic `CloseTopic` makes of the topic being filled, with the
vector and the engine it finds. -/
def TTopic.closed (topic : TTopic) (topicBrokerVec : List Int) (randomEngine : TRandomEngine) : TTopic :=
  { okPartitions := (randomEngine.shuffle topic.sortedOk).2
    outOfServicePartitions := topic.outOfServicePartitions
    allPartitions := (topic.sortedOk ++ topic.outOfServicePartitions).insertionSort TPartition.ById
    partitionChoiceMap := chunkLayout topicBrokerVec.length (runs TPartition.brokerIndex topic.sortedOk) }

/-- What `CloseTopic` does to a builder filling a topic. -/
theorem Open.closeTopic_eq {closedTopics : List TTopic} {topic : TTopic}
    (opened : Open builder closedTopics topic) :
    builder.closeTopic =
      { builder with
        randomEngine := (builder.randomEngine.shuffle topic.sortedOk).1
        brokers := markIn (topic.sortedOk.map TPartition.brokerIndex) builder.brokers
        topicBrokerVec := builder.topicBrokerVec ++ topic.sortedOk.map TPartition.id
        topics := closedTopics ++ [topic.closed builder.topicBrokerVec builder.randomEngine] } := by
  have current : builder.topics[builder.currentTopicIndex]? = some topic := by
    simp [opened.topics_eq, opened.currentTopicIndex_eq]
  have valid : ∀ b ∈ KeyedList.keys (chunkLayout builder.topicBrokerVec.length (runs TPartition.brokerIndex topic.sortedOk)),
      b < builder.brokers.length := by
    intro b member
    obtain ⟨p, pMember, rfl⟩ := List.mem_map.mp ((topic.mem_keys_chunkLayout_sortedOk _ b).mp member)
    exact opened.filling.brokerIndex_lt p (List.mem_append_left _ (topic.perm_sortedOk.subset pMember))
  have fresh : (KeyedList.keys (topic.partitionChoiceMap ++
      chunkLayout builder.topicBrokerVec.length (runs TPartition.brokerIndex topic.sortedOk))).Nodup := by
    rw [opened.filling.partitionChoiceMap_nil, List.nil_append]
    exact nodup_keys_chunkLayout topic.runs_sortedOk_ordered
  have loop := @chunkLoop_eq ⟨builder.brokers, topic.partitionChoiceMap, builder.topicBrokerVec⟩ _ valid fresh
  simp only [TBuilder.closeTopic, current]
  rw [show topic.okPartitions.insertionSort TPartition.BrokerThenId = topic.sortedOk from rfl, loop]
  simp only [opened.filling.partitionChoiceMap_nil, List.nil_append, flatten_runs, opened.topics_eq,
    opened.currentTopicIndex_eq, List.set_append_right _ _ (Nat.le_refl _), Nat.sub_self,
    List.set_cons_zero, TTopic.closed]
  rw [markIn_congr (topic.mem_keys_chunkLayout_sortedOk _)]

/-- The topic `CloseTopic` makes passes `SanityCheckOneTopic` against the
vector with its IDs appended. -/
theorem Filling.closed_sane {brokerCount : Nat} {currentTopicPartitions : List Int} {topic : TTopic}
    (filling : Filling brokerCount currentTopicPartitions topic) (topicBrokerVec : List Int)
    (randomEngine : TRandomEngine) :
    TopicSane brokerCount (topicBrokerVec ++ topic.sortedOk.map TPartition.id)
      (topic.closed topicBrokerVec randomEngine) := by
  let layout := chunkLayout topicBrokerVec.length (runs TPartition.brokerIndex topic.sortedOk)
  have shuffled : (topic.closed topicBrokerVec randomEngine).okPartitions.Perm topic.okPartitions :=
    (randomEngine.shuffle_perm topic.sortedOk).trans topic.perm_sortedOk
  -- the closed topic's partitions are the filled topic's, reordered
  have partitions : ((topic.closed topicBrokerVec randomEngine).okPartitions ++ topic.outOfServicePartitions).Perm
      (topic.okPartitions ++ topic.outOfServicePartitions) := shuffled.append_right _
  have sortedPerm : (topic.sortedOk ++ topic.outOfServicePartitions).Perm
      (topic.okPartitions ++ topic.outOfServicePartitions) := topic.perm_sortedOk.append_right _
  have distinct : ((topic.sortedOk ++ topic.outOfServicePartitions).map TPartition.id).Nodup :=
    (sortedPerm.map TPartition.id).nodup_iff.mpr filling.ids_nodup
  have okMember : ∀ p, p ∈ (topic.closed topicBrokerVec randomEngine).okPartitions ↔ p ∈ topic.sortedOk :=
    fun p => (shuffled.trans topic.perm_sortedOk.symm).mem_iff
  have distinctSorted : (topic.sortedOk.map TPartition.id).Nodup := by
    rw [List.map_append] at distinct
    exact (List.nodup_append.mp distinct).1
  refine {
    ids_nodup := (partitions.map TPartition.id).nodup_iff.mpr filling.ids_nodup
    brokerIndex_lt := fun p member => filling.brokerIndex_lt p (partitions.subset member)
    allPartitions_perm := (List.perm_insertionSort _ _).trans (sortedPerm.trans partitions.symm)
    allPartitions_sorted := pairwise_id_lt (List.pairwise_insertionSort _ _)
      ((List.perm_insertionSort _ _ |>.map TPartition.id).nodup_iff.mpr distinct)
    keys_nodup := nodup_keys_chunkLayout topic.runs_sortedOk_ordered
    mem_keys := fun b => ?_
    chunk_sorted := fun b choices entry => ?_
    mem_chunk := fun b choices entry id => ?_ }
  · rw [show (topic.closed topicBrokerVec randomEngine).partitionChoiceMap = layout from rfl,
      topic.mem_keys_chunkLayout_sortedOk, List.mem_map]
    exact ⟨fun ⟨p, member, same⟩ => ⟨p, (okMember p).mpr member, same⟩,
      fun ⟨p, member, same⟩ => ⟨p, (okMember p).mp member, same⟩⟩
  all_goals
    obtain ⟨run, runMember, first, firstMember, key, read⟩ :=
      @chunk_of_mem_chunkLayout topicBrokerVec _ _ (show (b, choices) ∈ layout from entry)
    rw [flatten_runs] at read
    simp only at key read
    rw [read]
  · -- a run lies in the sorted list, with one broker: its IDs increase
    have within := topic.pairwise_sortedOk.sublist (sublist_of_mem_runs runMember)
    have runDistinct : (run.map TPartition.id).Nodup :=
      ((sublist_of_mem_runs runMember).map TPartition.id).nodup distinctSorted
    refine List.pairwise_map.mpr (pairwise_id_lt (within.imp_of_mem fun xMember yMember before => ?_) runDistinct)
    have same := key_eq_of_mem_run runMember xMember yMember
    unfold TPartition.BrokerThenId at before
    unfold TPartition.ById
    omega
  · have sorted := topic.pairwise_brokerIndex_sortedOk
    rw [List.mem_map]
    simp only [key]
    constructor
    · rintro ⟨p, inRun, rfl⟩
      have found := (mem_run_iff sorted runMember firstMember).mp inRun
      exact ⟨p, (okMember p).mpr found.1, found.2, rfl⟩
    · rintro ⟨p, member, same, rfl⟩
      exact ⟨p, (mem_run_iff sorted runMember firstMember).mpr ⟨(okMember p).mp member, same⟩, rfl⟩

/-- `CloseTopic` brings a builder filling a topic back between topics:
the closed topic passes its check, its chunks follow the others, and the
brokers of its ok partitions are now in service. -/
theorem Open.closeTopic {closedTopics : List TTopic} {topic : TTopic} (opened : Open builder closedTopics topic) :
    Closed builder.closeTopic := by
  rw [opened.closeTopic_eq]
  have sound := opened.sound
  have okPerm : (topic.closed builder.topicBrokerVec builder.randomEngine).okPartitions.Perm topic.sortedOk :=
    builder.randomEngine.shuffle_perm _
  refine ⟨opened.brokerMap.congr_ids (by simp), ?_, ⟨fun closed member => ?_, ?_, fun i within => ?_, ?_⟩⟩
  · simpa [opened.topics_eq] using opened.names
  · rcases List.mem_append.mp member with old | new
    · exact ((sound.topicSane closed old).append old sound.tiles _).mono (by simp)
    · rw [List.mem_singleton.mp new]
      exact (opened.filling.closed_sane builder.topicBrokerVec builder.randomEngine).mono (by simp)
  · -- the new chunks lie end to end after the old ones
    have newBlocks := tiles_chunkLayout builder.topicBrokerVec.length (runs TPartition.brokerIndex topic.sortedOk)
    rw [flatten_runs] at newBlocks
    simpa [chunkBlocks, TTopic.closed] using sound.tiles.append newBlocks
  · have old : i < builder.brokers.length := by simpa using within
    rw [inService_markIn old within, Bool.or_eq_true, sound.inService i old]
    simp only [decide_eq_true_eq, List.mem_map, List.mem_append, List.mem_singleton]
    constructor
    · rintro (⟨closed, member, found⟩ | ⟨p, member, same⟩)
      · exact ⟨closed, .inl member, found⟩
      · exact ⟨_, .inr rfl, p, okPerm.mem_iff.mpr member, same⟩
    · rintro ⟨closed, (member | rfl), found⟩
      · exact .inl ⟨closed, member, found⟩
      · obtain ⟨p, member, same⟩ := found
        exact .inr ⟨p, okPerm.mem_iff.mp member, same⟩
  · simp [sound.vecLength, okPerm.length_eq]

/-- The calls of one topic keep the builder between topics right. -/
theorem Closed.addTopic (closed : Closed builder) (topic : TTopicCalls) : Closed (builder.addTopic topic) := by
  unfold TBuilder.addTopic
  by_cases present : topic.name ∈ KeyedList.keys builder.topicNameToIndex
  · rw [TBuilder.openTopic_of_mem present]
    exact closed
  · obtain ⟨opened, filling⟩ := closed.openTopic present
    rw [opened] at filling ⊢
    exact (filling.addPartitions topic.partitions).closeTopic

theorem Closed.addTopics (closed : Closed builder) (topics : List TTopicCalls) :
    Closed (topics.foldl TBuilder.addTopic builder) := by
  induction topics generalizing builder with
  | nil => exact closed
  | cons topic rest ih => exact ih (closed.addTopic topic)

theorem Closed.addBrokers (closed : Closed builder) (brokers : List TBrokerCall) :
    Closed (builder.addBrokers brokers) := by
  induction brokers generalizing builder with
  | nil => exact closed
  | cons broker rest ih => exact ih (closed.addBroker broker.kafkaId broker.hostname broker.port)

/-! ### Grouping the in-service brokers -/

section Renaming

variable {brokerCount : Nat} {oldIndexesToNew : Nat → Nat}

/-- The renaming `Build` applies to broker indexes: into the indexes, and
one to one. -/
structure Renaming (brokerCount : Nat) (oldIndexesToNew : Nat → Nat) : Prop where
  lt : ∀ i < brokerCount, oldIndexesToNew i < brokerCount
  inj : ∀ i < brokerCount, ∀ j < brokerCount, oldIndexesToNew i = oldIndexesToNew j → i = j

@[simp] theorem TPartition.id_renameBroker (partition : TPartition) :
    (partition.renameBroker oldIndexesToNew).id = partition.id := rfl

@[simp] theorem TPartition.brokerIndex_renameBroker (partition : TPartition) :
    (partition.renameBroker oldIndexesToNew).brokerIndex = oldIndexesToNew partition.brokerIndex := rfl

@[simp] theorem TPartition.map_id_renameBroker (partitions : List TPartition) :
    (partitions.map (TPartition.renameBroker oldIndexesToNew)).map TPartition.id = partitions.map TPartition.id := by
  simp [Function.comp_def]

/-- The map's keys are leaders of ok partitions, so in range. -/
theorem TopicSane.key_lt {topicBrokerVec : List Int} {topic : TTopic}
    (sane : TopicSane brokerCount topicBrokerVec topic) {b : Nat}
    (member : b ∈ KeyedList.keys topic.partitionChoiceMap) : b < brokerCount := by
  obtain ⟨p, okMember, rfl⟩ := (sane.mem_keys b).mp member
  exact sane.brokerIndex_lt p (List.mem_append_left _ okMember)

/-- The map's keys stay distinct under the renaming. -/
theorem TopicSane.nodup_renamedKeys {topicBrokerVec : List Int} {topic : TTopic}
    (sane : TopicSane brokerCount topicBrokerVec topic) (oneToOne : Renaming brokerCount oldIndexesToNew) :
    (KeyedList.keys (topic.partitionChoiceMap.map fun entry => (oldIndexesToNew entry.1, entry.2))).Nodup := by
  have renamedKeys : KeyedList.keys (topic.partitionChoiceMap.map fun entry => (oldIndexesToNew entry.1, entry.2)) =
      (KeyedList.keys topic.partitionChoiceMap).map oldIndexesToNew := by
    simp [KeyedList.keys, Function.comp_def]
  rw [renamedKeys]
  exact sane.keys_nodup.map_on fun a aMember b bMember same =>
    oneToOne.inj a (sane.key_lt aMember) b (sane.key_lt bMember) same

/-- With leaders in range, the renamed map is the map under the new keys. -/
theorem TopicSane.partitionChoiceMap_renameBrokers {topicBrokerVec : List Int} {topic : TTopic}
    (sane : TopicSane brokerCount topicBrokerVec topic) (oneToOne : Renaming brokerCount oldIndexesToNew) :
    (topic.renameBrokers oldIndexesToNew).partitionChoiceMap =
      topic.partitionChoiceMap.map fun entry => (oldIndexesToNew entry.1, entry.2) :=
  KeyedList.foldl_insert_rename _ (sane.nodup_renamedKeys oneToOne)

/-- `SanityCheckOneTopic` holds after a one-to-one renaming of the broker
indexes. -/
theorem TopicSane.renameBrokers {topicBrokerVec : List Int} {topic : TTopic}
    (sane : TopicSane brokerCount topicBrokerVec topic) (oneToOne : Renaming brokerCount oldIndexesToNew) :
    TopicSane brokerCount topicBrokerVec (topic.renameBrokers oldIndexesToNew) := by
  have renamedMap := sane.partitionChoiceMap_renameBrokers oneToOne
  have leaderLt : ∀ p ∈ topic.okPartitions, p.brokerIndex < brokerCount := fun p member =>
    sane.brokerIndex_lt p (List.mem_append_left _ member)
  -- an entry of the renamed map is an old entry under its new key
  have renamedEntry : ∀ b choices, (b, choices) ∈ (topic.renameBrokers oldIndexesToNew).partitionChoiceMap →
      ∃ old, (old, choices) ∈ topic.partitionChoiceMap ∧ oldIndexesToNew old = b := by
    intro b choices entry
    rw [renamedMap, List.mem_map] at entry
    obtain ⟨⟨old, stored⟩, member, same⟩ := entry
    simp only [Prod.mk.injEq] at same
    exact ⟨old, same.2 ▸ member, same.1⟩
  refine {
    ids_nodup := by
      show ((topic.okPartitions.map _ ++ topic.outOfServicePartitions.map _).map TPartition.id).Nodup
      rw [← List.map_append, TPartition.map_id_renameBroker]
      exact sane.ids_nodup
    brokerIndex_lt := fun p member => ?_
    allPartitions_perm := by simpa [TTopic.renameBrokers] using sane.allPartitions_perm.map _
    allPartitions_sorted := List.pairwise_map.mpr (by simpa using sane.allPartitions_sorted)
    keys_nodup := renamedMap ▸ sane.nodup_renamedKeys oneToOne
    mem_keys := fun b => ?_
    chunk_sorted := fun b choices entry => ?_
    mem_chunk := fun b choices entry id => ?_ }
  · simp only [TTopic.renameBrokers, ← List.map_append, List.mem_map] at member
    obtain ⟨old, oldMember, rfl⟩ := member
    exact oneToOne.lt _ (sane.brokerIndex_lt old oldMember)
  · rw [renamedMap]
    constructor
    · intro member
      obtain ⟨stored, member⟩ := KeyedList.mem_keys.mp member
      obtain ⟨⟨old, value⟩, oldMember, same⟩ := List.mem_map.mp member
      simp only [Prod.mk.injEq] at same
      obtain ⟨p, okMember, leader⟩ := (sane.mem_keys old).mp (KeyedList.mem_keys_of_mem oldMember)
      exact ⟨p.renameBroker oldIndexesToNew, List.mem_map_of_mem okMember, by simp [leader, same.1]⟩
    · rintro ⟨renamed, member, rfl⟩
      obtain ⟨p, okMember, rfl⟩ := List.mem_map.mp member
      obtain ⟨stored, entry⟩ := KeyedList.mem_keys.mp ((sane.mem_keys _).mpr ⟨p, okMember, rfl⟩)
      exact KeyedList.mem_keys_of_mem (List.mem_map_of_mem (f := fun entry => (oldIndexesToNew entry.1, entry.2)) entry)
  · obtain ⟨old, member, -⟩ := renamedEntry b choices entry
    exact sane.chunk_sorted old choices member
  · obtain ⟨old, member, rfl⟩ := renamedEntry b choices entry
    have oldLt := sane.key_lt (KeyedList.mem_keys_of_mem member)
    rw [sane.mem_chunk old choices member id]
    constructor
    · rintro ⟨p, okMember, same, rfl⟩
      exact ⟨p.renameBroker oldIndexesToNew, List.mem_map_of_mem okMember, by simp [same], rfl⟩
    · rintro ⟨renamed, member, same, rfl⟩
      obtain ⟨p, okMember, rfl⟩ := List.mem_map.mp member
      exact ⟨p, okMember, oneToOne.inj _ (leaderLt p okMember) _ oldLt same, rfl⟩

/-- Renaming keeps every chunk where it was. -/
theorem chunkBlocks_renameBrokers {topicBrokerVec : List Int} {topics : List TTopic}
    (sane : ∀ topic ∈ topics, TopicSane brokerCount topicBrokerVec topic)
    (oneToOne : Renaming brokerCount oldIndexesToNew) :
    chunkBlocks (topics.map (TTopic.renameBrokers oldIndexesToNew)) = chunkBlocks topics := by
  simp only [chunkBlocks, List.flatMap_map]
  refine List.flatMap_congr fun topic member => ?_
  rw [(sane topic member).partitionChoiceMap_renameBrokers oneToOne, List.map_map]
  rfl

/-- The checks of the topics hold after the renaming, with every broker
moved to its new place. -/
theorem TopicsSound.renameBrokers {brokers newBrokers : List TBroker} {topicBrokerVec : List Int}
    {topics : List TTopic} (sound : TopicsSound brokers topicBrokerVec topics)
    (oneToOne : Renaming brokers.length oldIndexesToNew) (sameLength : newBrokers.length = brokers.length)
    (moved : ∀ i < brokers.length, newBrokers[oldIndexesToNew i]? = brokers[i]?)
    (onto : ∀ j < brokers.length, ∃ i < brokers.length, oldIndexesToNew i = j) :
    TopicsSound newBrokers topicBrokerVec (topics.map (TTopic.renameBrokers oldIndexesToNew)) := by
  refine ⟨fun topic member => ?_, ?_, fun j within => ?_, ?_⟩
  · obtain ⟨old, oldMember, rfl⟩ := List.mem_map.mp member
    exact sameLength ▸ (sound.topicSane old oldMember).renameBrokers oneToOne
  · rw [chunkBlocks_renameBrokers sound.topicSane oneToOne]
    exact sound.tiles
  · obtain ⟨i, old, rfl⟩ := onto j (sameLength ▸ within)
    have atNew : newBrokers[oldIndexesToNew i] = brokers[i] :=
      Option.some.inj (by rw [← List.getElem?_eq_getElem, ← List.getElem?_eq_getElem]; exact moved i old)
    rw [atNew, sound.inService i old]
    simp only [List.mem_map, TTopic.renameBrokers]
    constructor
    · rintro ⟨topic, member, p, okMember, rfl⟩
      exact ⟨_, ⟨topic, member, rfl⟩, p.renameBroker oldIndexesToNew, List.mem_map_of_mem okMember, rfl⟩
    · rintro ⟨_, ⟨topic, member, rfl⟩, renamed, okMember, same⟩
      obtain ⟨p, pMember, rfl⟩ := List.mem_map.mp okMember
      have leader := (sound.topicSane topic member).brokerIndex_lt p (List.mem_append_left _ pMember)
      exact ⟨topic, member, p, pMember, oneToOne.inj _ leader _ old same⟩
  · simp [sound.vecLength, TTopic.renameBrokers, Function.comp_def]

end Renaming

/-- The brokers in the order of `broker_index_reorder`: the in-service
ones, then the others, each group in its old order. -/
theorem filterMap_brokerIndexReorder (brokers : List TBroker) :
    (TBuilder.brokerIndexReorder brokers).filterMap (brokers[·]?) =
      brokers.filter TBroker.inService ++ brokers.filter fun broker => !broker.inService := by
  rw [TBuilder.brokerIndexReorder, List.filterMap_append, filterMap_filter_range,
    ← filterMap_filter_range (fun broker : TBroker => !broker.inService)]
  congr 2
  refine List.filter_congr fun i member => ?_
  rw [List.getElem?_eq_getElem (List.mem_range.mp member)]
  rfl

namespace TBuilder

@[simp] theorem brokers_build (builder : TBuilder) :
    builder.build.brokers =
      builder.brokers.filter TBroker.inService ++ builder.brokers.filter fun broker => !broker.inService :=
  filterMap_brokerIndexReorder builder.brokers

@[simp] theorem inServiceBrokerCount_build (builder : TBuilder) :
    builder.build.inServiceBrokerCount = (builder.build.brokers.takeWhile TBroker.inService).length :=
  rfl

@[simp] theorem topics_build (builder : TBuilder) :
    builder.build.topics =
      builder.topics.map (TTopic.renameBrokers fun old => (brokerIndexReorder builder.brokers).idxOf old) :=
  rfl

@[simp] theorem topicBrokerVec_build (builder : TBuilder) :
    builder.build.topicBrokerVec = builder.topicBrokerVec :=
  rfl

@[simp] theorem topicNameToIndex_build (builder : TBuilder) :
    builder.build.topicNameToIndex = builder.topicNameToIndex :=
  rfl

end TBuilder

/-- `Build` renames the broker indexes one to one and puts the in-service
brokers first: the metadata passes `SanityCheck()`. -/
theorem Closed.build (closed : Closed builder) : Sane builder.build := by
  have perm : (TBuilder.brokerIndexReorder builder.brokers).Perm (List.range builder.brokers.length) :=
    List.filter_append_perm _ _
  have oneToOne : Renaming builder.brokers.length
      fun old => (TBuilder.brokerIndexReorder builder.brokers).idxOf old :=
    ⟨fun i within => idxOf_lt_of_perm perm within,
      fun i hi j hj same => (idxOf_inj_of_perm perm hi hj).mp same⟩
  have sound : TopicsSound builder.build.brokers builder.build.topicBrokerVec builder.build.topics :=
    closed.sound.renameBrokers oneToOne (length_filterMap_getElem? perm)
      (fun i within => getElem?_filterMap_idxOf perm within)
      (fun j within => exists_idxOf_eq_of_perm perm within)
  refine ⟨?_, by simpa using closed.names, sound, ?_, fun j within => ?_⟩
  · rw [TBuilder.brokers_build]
    exact ((List.filter_append_perm _ _).map TBroker.id).nodup_iff.mpr closed.brokerMap.brokerIds_nodup
  · exact (List.takeWhile_sublist _).length_le
  · simp only [TBuilder.inServiceBrokerCount_build]
    simp only [TBuilder.brokers_build] at within ⊢
    exact test_getElem_partition_iff TBroker.inService builder.brokers within

/-- The metadata built from any calls that follow the builder's protocol
passes `SanityCheck()`. -/
theorem ofCalls_sane (engine : TRandomEngine) (brokers : List TBrokerCall) (topics : List TTopicCalls) :
    Sane (TMetadata.ofCalls engine brokers topics) :=
  (((Closed.create engine).addBrokers brokers).addTopics topics).build

end Dory.TMetadata
