/-
Module: Dory.Metadata.Contents
Purpose: What the built metadata holds, said in terms of the builder's
  calls.  A broker is the first `AddBroker` of its Kafka ID; a topic is the
  first `OpenTopic` of its name; and the partitions of a topic are, among its
  `AddPartitionToTopic` calls that name a known broker, the first of each
  partition ID (`keptCalls`), ok or out of service as the call said, and led
  by the broker with the call's Kafka ID (`Describes`).  `Records` relates
  the builder to these contents after every call; `Contents` relates the
  built metadata, whose broker vector `Build` has regrouped.  As in
  `Dory.Metadata`, asserts are not checked.
Trusted boundary: none
Main exports: TPartition.view, keptCalls, Describes, Records, Contents,
  ofCalls_contents
-/
import Dory.Metadata.Sanity

namespace Dory.TMetadata

open Dory.Foundation

/-- A broker as its `AddBroker` call gave it: Kafka ID, host name, port. -/
def TBroker.record (broker : TBroker) : Int × String × UInt16 :=
  (broker.id, broker.hostname, broker.port)

/-- The broker an `AddBroker` call asks for. -/
def TBrokerCall.record (call : TBrokerCall) : Int × String × UInt16 :=
  (call.kafkaId, call.hostname, call.port)

/-- A partition as `operator==` sees it, with its leader's Kafka ID read
from a broker vector. -/
def TPartition.view (brokers : List TBroker) (partition : TPartition) : Int × Option Int × Int16 :=
  (partition.id, brokers[partition.brokerIndex]?.map TBroker.id, partition.errorCode)

/-- The partition an `AddPartitionToTopic` call asks for. -/
def TPartitionCall.view (call : TPartitionCall) : Int × Option Int × Int16 :=
  (call.partitionId, some call.brokerId, call.errorCode)

/-- The partition calls of a topic that leave a partition: those that name
a known broker, and of these the first of each partition ID. -/
def keptCalls (known : List Int) (calls : List TPartitionCall) : List TPartitionCall :=
  (KeyedList.ofFirst TPartitionCall.partitionId (calls.filter fun call => call.brokerId ∈ known)).map Prod.snd

/-- A topic holds, in some order, the partitions its kept calls ask for. -/
structure Describes (brokers : List TBroker) (kept : List TPartitionCall) (topic : TTopic) : Prop where
  ok : (topic.okPartitions.map (TPartition.view brokers)).Perm
    ((kept.filter TPartitionCall.canSendToPartition).map TPartitionCall.view)
  outOfService : (topic.outOfServicePartitions.map (TPartition.view brokers)).Perm
    ((kept.filter fun call => !call.canSendToPartition).map TPartitionCall.view)

/-! ### The calls a topic keeps -/

section Kept

variable {known : List Int}

theorem keptCalls_append_singleton (calls : List TPartitionCall) (call : TPartitionCall) :
    keptCalls known (calls ++ [call]) =
      if call.brokerId ∈ known ∧ call.partitionId ∉ (keptCalls known calls).map TPartitionCall.partitionId
      then keptCalls known calls ++ [call] else keptCalls known calls := by
  unfold keptCalls
  rw [List.filter_append]
  by_cases isKnown : call.brokerId ∈ known
  · simp only [List.filter_cons, List.filter_nil, isKnown, decide_true, if_true]
    rw [KeyedList.ofFirst_append_singleton, ← KeyedList.keys_ofFirst]
    by_cases seen : call.partitionId ∈ KeyedList.keys (KeyedList.ofFirst TPartitionCall.partitionId
        (calls.filter fun call => call.brokerId ∈ known))
    · rw [KeyedList.insert_of_mem seen]
      simp [seen]
    · rw [KeyedList.insert_of_not_mem seen]
      simp [seen]
  · simp [isKnown]

/-- With distinct partition IDs, a topic keeps every call that names a
known broker. -/
theorem keptCalls_of_nodup {calls : List TPartitionCall} (unique : (calls.map TPartitionCall.partitionId).Nodup) :
    keptCalls known calls = calls.filter fun call => call.brokerId ∈ known := by
  have filtered : ((calls.filter fun call => call.brokerId ∈ known).map TPartitionCall.partitionId).Nodup :=
    unique.sublist (List.filter_sublist.map _)
  rw [keptCalls, KeyedList.ofFirst_of_nodup filtered, List.map_map]
  exact List.map_id' _

end Kept

/-! ### A topic and its kept calls -/

section Describes

variable {brokers : List TBroker} {kept : List TPartitionCall} {topic : TTopic}

/-- The topic's partition IDs are those of its kept calls. -/
theorem Describes.ids (describes : Describes brokers kept topic) :
    ((topic.okPartitions ++ topic.outOfServicePartitions).map TPartition.id).Perm
      (kept.map TPartitionCall.partitionId) := by
  have okIds := describes.ok.map Prod.fst
  have outIds := describes.outOfService.map Prod.fst
  simp only [List.map_map] at okIds outIds
  rw [List.map_append]
  refine (okIds.append outIds).trans ?_
  rw [← List.map_append]
  exact (List.filter_append_perm _ _).map _

/-- Only the brokers' Kafka IDs matter. -/
theorem Describes.congr_ids {others : List TBroker} (describes : Describes brokers kept topic)
    (sameIds : others.map TBroker.id = brokers.map TBroker.id) : Describes others kept topic := by
  have sameView : TPartition.view others = TPartition.view brokers := by
    funext partition
    have atIndex := congrArg (fun ids : List Int => ids[partition.brokerIndex]?) sameIds
    simp only [List.getElem?_map] at atIndex
    simp [TPartition.view, atIndex]
  obtain ⟨ok, outOfService⟩ := describes
  rw [← sameView] at ok outOfService
  exact ⟨ok, outOfService⟩

/-- `TTopic.addCall`, read as contents: the call is kept exactly when its
broker is known and its partition ID is new. -/
theorem Describes.addCall {brokerMap : List (Int × Nat)} {known : List Int} {calls : List TPartitionCall}
    (valid : BrokerMapValid brokerMap brokers) (isKnown : ∀ id, id ∈ known ↔ id ∈ KeyedList.keys brokerMap)
    (describes : Describes brokers (keptCalls known calls) topic) (call : TPartitionCall) :
    Describes brokers (keptCalls known (calls ++ [call])) (topic.addCall brokerMap call) := by
  rw [keptCalls_append_singleton]
  unfold TTopic.addCall
  cases found : brokerMap.lookup call.brokerId with
  | none =>
      have unknown : call.brokerId ∉ known := by
        rw [isKnown]
        exact KeyedList.lookup_eq_none.mp found
      simpa [unknown] using describes
  | some brokerIndex =>
      obtain ⟨within, leader⟩ := valid.lookup_eq_some found
      have known' : call.brokerId ∈ known := (isKnown _).mpr (KeyedList.mem_keys_of_mem (KeyedList.mem_of_lookup found))
      dsimp only
      by_cases seen : call.partitionId ∈ (topic.okPartitions ++ topic.outOfServicePartitions).map TPartition.id
      · have kept : call.partitionId ∈ (keptCalls known calls).map TPartitionCall.partitionId :=
          describes.ids.subset seen
        rw [if_pos seen, if_neg fun keep => keep.2 kept]
        exact describes
      · have fresh : call.partitionId ∉ (keptCalls known calls).map TPartitionCall.partitionId :=
          fun member => seen (describes.ids.symm.subset member)
        rw [if_neg seen, if_pos ⟨known', fresh⟩]
        have view : TPartition.view brokers ⟨call.partitionId, brokerIndex, call.errorCode⟩ = call.view := by
          simp [TPartition.view, TPartitionCall.view, List.getElem?_eq_getElem within, leader]
        -- the new partition goes to the list its call asked for
        cases canSend : call.canSendToPartition
        · refine ⟨?_, ?_⟩
          · simpa [TTopic.withPartition, canSend] using describes.ok
          · simpa [TTopic.withPartition, canSend, view] using describes.outOfService.append_right [call.view]
        · refine ⟨?_, ?_⟩
          · simpa [TTopic.withPartition, canSend, view] using describes.ok.append_right [call.view]
          · simpa [TTopic.withPartition, canSend] using describes.outOfService

/-- The partition calls of a topic, one after another, from the empty
topic. -/
theorem describes_foldl_addCall {brokerMap : List (Int × Nat)} {known : List Int}
    (valid : BrokerMapValid brokerMap brokers) (isKnown : ∀ id, id ∈ known ↔ id ∈ KeyedList.keys brokerMap)
    (calls : List TPartitionCall) :
    Describes brokers (keptCalls known calls) (calls.foldl (TTopic.addCall brokerMap) {}) := by
  induction calls using List.reverseRecOn with
  | nil => exact ⟨by simp [keptCalls], by simp [keptCalls]⟩
  | append_singleton init last ih =>
      rw [List.foldl_append, List.foldl_cons, List.foldl_nil]
      exact ih.addCall valid isKnown last

/-- Closing the topic sorts and shuffles its ok partitions and keeps the
others. -/
theorem Describes.closed (describes : Describes brokers kept topic) (topicBrokerVec : List Int)
    (randomEngine : TRandomEngine) : Describes brokers kept (topic.closed topicBrokerVec randomEngine) :=
  ⟨(((randomEngine.shuffle_perm _).trans topic.perm_sortedOk).map _).trans describes.ok, describes.outOfService⟩

/-- Renaming the broker indexes, with every broker moved to its new place,
keeps what each partition names. -/
theorem Describes.renameBrokers {newBrokers : List TBroker} {oldIndexesToNew : Nat → Nat}
    (describes : Describes brokers kept topic)
    (moved : ∀ i < brokers.length, newBrokers[oldIndexesToNew i]? = brokers[i]?)
    (leaders : ∀ p ∈ topic.okPartitions ++ topic.outOfServicePartitions, p.brokerIndex < brokers.length) :
    Describes newBrokers kept (topic.renameBrokers oldIndexesToNew) := by
  have sameView : ∀ partitions : List TPartition, (∀ p ∈ partitions, p.brokerIndex < brokers.length) →
      (partitions.map (TPartition.renameBroker oldIndexesToNew)).map (TPartition.view newBrokers) =
        partitions.map (TPartition.view brokers) := by
    intro partitions within
    rw [List.map_map]
    refine List.map_congr_left fun p member => ?_
    simp [TPartition.view, TPartition.renameBroker, moved _ (within p member)]
  constructor
  · rw [TTopic.renameBrokers, sameView _ fun p member => leaders p (List.mem_append_left _ member)]
    exact describes.ok
  · rw [TTopic.renameBrokers, sameView _ fun p member => leaders p (List.mem_append_right _ member)]
    exact describes.outOfService

end Describes

/-! ### The builder and the calls so far -/

/-- Marking keeps what `AddBroker` was given. -/
@[simp] theorem map_record_markIn (indexes : List Nat) (brokers : List TBroker) :
    (markIn indexes brokers).map TBroker.record = brokers.map TBroker.record := by
  apply List.ext_getElem?
  intro i
  simp only [List.getElem?_map, getElem?_markIn, Option.map_map]
  congr 1
  funext broker
  by_cases member : i ∈ indexes <;> simp [member, TBroker.markInService, TBroker.record]

namespace TBuilder

@[simp] theorem topicNameToIndex_addPartitionToTopic {builder : TBuilder} (partitionId brokerId : Int)
    (canSendToPartition : Bool) (errorCode : Int16) :
    (builder.addPartitionToTopic partitionId brokerId canSendToPartition errorCode).topicNameToIndex =
      builder.topicNameToIndex := by
  unfold addPartitionToTopic
  split
  · rfl
  · dsimp only
    split_ifs <;> rfl

/-- The partition calls of a topic leave the brokers and the names. -/
theorem foldl_addPartitionToTopic_frame (calls : List TPartitionCall) (builder : TBuilder) :
    let filled := calls.foldl (fun builder call =>
      builder.addPartitionToTopic call.partitionId call.brokerId call.canSendToPartition call.errorCode) builder
    filled.brokers = builder.brokers ∧ filled.topicNameToIndex = builder.topicNameToIndex := by
  induction calls generalizing builder with
  | nil => exact ⟨rfl, rfl⟩
  | cons call rest ih =>
      obtain ⟨brokers, names⟩ := ih (builder.addPartitionToTopic call.partitionId call.brokerId
        call.canSendToPartition call.errorCode)
      exact ⟨brokers.trans (brokers_addPartitionToTopic ..), names.trans (topicNameToIndex_addPartitionToTopic ..)⟩

end TBuilder

/-- The builder holds what the calls so far ask for: the first broker of
each Kafka ID, the first topic of each name, and for each topic what its
kept calls ask for. -/
structure Records (brokerCalls : List TBrokerCall) (topicCalls : List TTopicCalls) (builder : TBuilder) :
    Prop where
  brokers : builder.brokers.map TBroker.record =
    (KeyedList.ofFirst TBrokerCall.kafkaId brokerCalls).map (TBrokerCall.record ∘ Prod.snd)
  names : KeyedList.keys builder.topicNameToIndex = KeyedList.keys (KeyedList.ofFirst TTopicCalls.name topicCalls)
  topics : List.Forall₂ (fun entry topic =>
      Describes builder.brokers (keptCalls (brokerCalls.map TBrokerCall.kafkaId) entry.2.partitions) topic)
    (KeyedList.ofFirst TTopicCalls.name topicCalls) builder.topics

section Records

variable {builder : TBuilder} {brokerCalls : List TBrokerCall} {topicCalls : List TTopicCalls}

theorem Records.brokerIds (records : Records brokerCalls topicCalls builder) :
    builder.brokers.map TBroker.id = KeyedList.keys (KeyedList.ofFirst TBrokerCall.kafkaId brokerCalls) := by
  have ids := congrArg (List.map Prod.fst) records.brokers
  simp only [List.map_map] at ids
  rw [KeyedList.keys_ofFirst, List.map_map]
  exact ids

/-- A broker is known to the map exactly when some `AddBroker` named it. -/
theorem Records.isKnown (records : Records brokerCalls topicCalls builder) (closed : Closed builder) (id : Int) :
    id ∈ brokerCalls.map TBrokerCall.kafkaId ↔ id ∈ KeyedList.keys builder.brokerMap := by
  rw [closed.brokerMap.mem_keys_iff, records.brokerIds, KeyedList.mem_keys_ofFirst, List.mem_map]

theorem Records.create (engine : TRandomEngine) : Records [] [] { randomEngine := engine } :=
  ⟨rfl, rfl, .nil⟩

theorem Records.addBroker (records : Records brokerCalls [] builder) (closed : Closed builder)
    (call : TBrokerCall) :
    Records (brokerCalls ++ [call]) [] (builder.addBroker call.kafkaId call.hostname call.port) := by
  have noTopics : builder.topics = [] := List.forall₂_nil_left_iff.mp records.topics
  have named : call.kafkaId ∈ KeyedList.keys builder.brokerMap ↔
      call.kafkaId ∈ KeyedList.keys (KeyedList.ofFirst TBrokerCall.kafkaId brokerCalls) := by
    rw [closed.brokerMap.mem_keys_iff, records.brokerIds]
  unfold TBuilder.addBroker
  by_cases present : call.kafkaId ∈ KeyedList.keys (KeyedList.ofFirst TBrokerCall.kafkaId brokerCalls)
  · have entries : KeyedList.ofFirst TBrokerCall.kafkaId (brokerCalls ++ [call]) =
        KeyedList.ofFirst TBrokerCall.kafkaId brokerCalls := by
      rw [KeyedList.ofFirst_append_singleton, KeyedList.insert_of_mem present]
    rw [if_pos (named.mpr present)]
    exact ⟨entries ▸ records.brokers, records.names, by simp [noTopics]⟩
  · have entries : KeyedList.ofFirst TBrokerCall.kafkaId (brokerCalls ++ [call]) =
        KeyedList.ofFirst TBrokerCall.kafkaId brokerCalls ++ [(call.kafkaId, call)] := by
      rw [KeyedList.ofFirst_append_singleton, KeyedList.insert_of_not_mem present]
    rw [if_neg (mt named.mp present)]
    refine ⟨?_, records.names, by simp [noTopics]⟩
    simp [entries, records.brokers, TBroker.record, TBrokerCall.record]

theorem Records.addBrokers (records : Records brokerCalls [] builder) (closed : Closed builder)
    (more : List TBrokerCall) : Records (brokerCalls ++ more) [] (builder.addBrokers more) := by
  induction more generalizing brokerCalls builder with
  | nil => simpa [TBuilder.addBrokers] using records
  | cons call rest ih =>
      have next := ih (records.addBroker closed call) (closed.addBroker call.kafkaId call.hostname call.port)
      simpa [TBuilder.addBrokers] using next

/-- The calls of one topic: a known name changes nothing, and a new one
adds a topic holding what its kept calls ask for. -/
theorem Records.addTopic (records : Records brokerCalls topicCalls builder) (closed : Closed builder)
    (topic : TTopicCalls) : Records brokerCalls (topicCalls ++ [topic]) (builder.addTopic topic) := by
  unfold TBuilder.addTopic
  by_cases present : topic.name ∈ KeyedList.keys builder.topicNameToIndex
  · have entries : KeyedList.ofFirst TTopicCalls.name (topicCalls ++ [topic]) =
        KeyedList.ofFirst TTopicCalls.name topicCalls := by
      rw [KeyedList.ofFirst_append_singleton, KeyedList.insert_of_mem (records.names ▸ present)]
    rw [TBuilder.openTopic_of_mem present]
    exact ⟨records.brokers, entries ▸ records.names, entries ▸ records.topics⟩
  · have entries : KeyedList.ofFirst TTopicCalls.name (topicCalls ++ [topic]) =
        KeyedList.ofFirst TTopicCalls.name topicCalls ++ [(topic.name, topic)] := by
      rw [KeyedList.ofFirst_append_singleton, KeyedList.insert_of_not_mem (records.names ▸ present)]
    obtain ⟨opened, filling⟩ := closed.openTopic present
    rw [opened] at filling ⊢
    dsimp only at filling ⊢
    have filled := filling.addPartitions topic.partitions
    obtain ⟨sameBrokers, sameNames⟩ := TBuilder.foldl_addPartitionToTopic_frame topic.partitions
      { builder with
        topicNameToIndex := builder.topicNameToIndex ++ [(topic.name, builder.topics.length)]
        currentTopicIndex := builder.topics.length
        topics := builder.topics ++ [{}]
        currentTopicPartitions := [] }
    rw [filled.closeTopic_eq]
    simp only at sameBrokers sameNames
    have sameIds : (markIn (TTopic.sortedOk (topic.partitions.foldl (TTopic.addCall builder.brokerMap) {})
        |>.map TPartition.brokerIndex) builder.brokers).map TBroker.id = builder.brokers.map TBroker.id :=
      map_id_markIn
    refine ⟨?_, ?_, ?_⟩
    · simp [sameBrokers, records.brokers]
    · simp [entries, sameNames, records.names]
    · rw [sameBrokers, entries]
      refine List.rel_append (records.topics.imp fun entry topic describes => describes.congr_ids sameIds) ?_
      refine List.Forall₂.cons ?_ .nil
      exact ((describes_foldl_addCall closed.brokerMap (records.isKnown closed) topic.partitions).closed _ _).congr_ids
        sameIds

theorem Records.addTopics (records : Records brokerCalls topicCalls builder) (closed : Closed builder)
    (more : List TTopicCalls) : Records brokerCalls (topicCalls ++ more) (more.foldl TBuilder.addTopic builder) := by
  induction more generalizing topicCalls builder with
  | nil => simpa using records
  | cons topic rest ih =>
      have next := ih (records.addTopic closed topic) (closed.addTopic topic)
      simpa using next

end Records

/-! ### The built metadata -/

/-- The built metadata holds what the calls ask for.  `Build` has regrouped
the brokers, so they are the first broker of each Kafka ID in some order. -/
structure Contents (brokerCalls : List TBrokerCall) (topicCalls : List TTopicCalls) (metadata : TMetadata) :
    Prop where
  brokers : (metadata.brokers.map TBroker.record).Perm
    ((KeyedList.ofFirst TBrokerCall.kafkaId brokerCalls).map (TBrokerCall.record ∘ Prod.snd))
  names : KeyedList.keys metadata.topicNameToIndex = KeyedList.keys (KeyedList.ofFirst TTopicCalls.name topicCalls)
  topics : List.Forall₂ (fun entry topic =>
      Describes metadata.brokers (keptCalls (brokerCalls.map TBrokerCall.kafkaId) entry.2.partitions) topic)
    (KeyedList.ofFirst TTopicCalls.name topicCalls) metadata.topics

section Build

variable {builder : TBuilder} {brokerCalls : List TBrokerCall} {topicCalls : List TTopicCalls}

/-- `Build` moves the brokers and renames the indexes the partitions hold
to match, so every partition still names its broker. -/
theorem Records.build (records : Records brokerCalls topicCalls builder) (closed : Closed builder) :
    Contents brokerCalls topicCalls builder.build := by
  have perm : (TBuilder.brokerIndexReorder builder.brokers).Perm (List.range builder.brokers.length) :=
    List.filter_append_perm _ _
  have moved : ∀ i < builder.brokers.length, builder.build.brokers[
      (TBuilder.brokerIndexReorder builder.brokers).idxOf i]? = builder.brokers[i]? :=
    fun i within => getElem?_filterMap_idxOf perm within
  refine ⟨?_, by simpa using records.names, ?_⟩
  · rw [TBuilder.brokers_build, ← records.brokers]
    exact (List.filter_append_perm _ _).map _
  · -- each topic passes its check, so its leaders are in range for the renaming
    have withSane := (List.forall₂_and_left _ _).mpr
      ⟨closed.sound.topicSane, records.topics.flip⟩
    rw [TBuilder.topics_build, List.forall₂_map_right_iff]
    exact withSane.flip.imp fun entry topic ⟨sane, describes⟩ =>
      describes.renameBrokers moved sane.brokerIndex_lt

/-- The metadata built from any calls that follow the builder's protocol
holds what they ask for. -/
theorem ofCalls_contents (engine : TRandomEngine) (brokers : List TBrokerCall) (topics : List TTopicCalls) :
    Contents brokers topics (TMetadata.ofCalls engine brokers topics) := by
  have closed := (Closed.create engine).addBrokers brokers
  have records := (Records.create engine).addBrokers (Closed.create engine) brokers
  rw [List.nil_append] at records
  have filled := records.addTopics closed topics
  rw [List.nil_append] at filled
  exact filled.build (closed.addTopics topics)

/-- The builder's contract: whatever calls it gets, in the protocol's
order, the metadata it builds passes `SanityCheck()` and holds what the
calls ask for, every partition naming the broker of the Kafka ID its call
gave. -/
theorem ofCalls_sanityCheck (engine : TRandomEngine) (brokers : List TBrokerCall) (topics : List TTopicCalls) :
    Sane (TMetadata.ofCalls engine brokers topics) ∧ Contents brokers topics (TMetadata.ofCalls engine brokers topics) :=
  ⟨ofCalls_sane engine brokers topics, ofCalls_contents engine brokers topics⟩

end Build

end Dory.TMetadata
