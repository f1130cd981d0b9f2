/-
Module: Dory.Metadata.Equality
Purpose: `TMetadata::operator==`.  It compares the sizes, then checks one
  way that every broker of the other metadata is one of this one's, and that
  every topic name of this one is the other's, with partitions that are, as
  (ID, leader's Kafka ID, error code) triples, among this one's.  With the
  uniqueness the builder establishes (`Sane`), the sizes turn these one-way
  checks into two-way equality of the contents (`SameContents`).  Builds
  from the same calls in another order have the same contents when no call
  repeats a key; with a repeated key the first call wins, and order matters.
Trusted boundary: none
Main exports: SameContents, beq_iff_sameContents, Reordered, Distinct,
  Contents.sameContents, ofCalls_beq
-/
import Mathlib
import Dory.Metadata.Contents

namespace Dory.TMetadata

open Dory.Foundation

/-- What `operator==` is meant to decide: the same brokers, the same topic
names, and for each topic the same ok and the same out-of-service
partitions, each seen as its ID, its leader's Kafka ID and its error code. -/
structure SameContents (this that : TMetadata) : Prop where
  brokers : ∀ broker, broker ∈ this.brokers ↔ broker ∈ that.brokers
  names : ∀ name, name ∈ KeyedList.keys this.topicNameToIndex ↔ name ∈ KeyedList.keys that.topicNameToIndex
  topics : ∀ name thisIndex thatIndex, this.topicNameToIndex.lookup name = some thisIndex →
    that.topicNameToIndex.lookup name = some thatIndex →
      (∀ view, view ∈ (this.topics.getD thisIndex {}).okPartitions.map this.partView ↔
        view ∈ (that.topics.getD thatIndex {}).okPartitions.map that.partView) ∧
      (∀ view, view ∈ (this.topics.getD thisIndex {}).outOfServicePartitions.map this.partView ↔
        view ∈ (that.topics.getD thatIndex {}).outOfServicePartitions.map that.partView)

/-! ### One-way inclusion and sizes -/

section Inclusion

variable {α : Type} {small large : List α}

/-- A list without repeats, inside one that is no longer, has the same
members. -/
theorem mem_iff_of_subset (nodup : small.Nodup) (sub : small ⊆ large) (len : large.length ≤ small.length)
    (x : α) : x ∈ small ↔ x ∈ large :=
  ((List.subperm_of_subset nodup sub).perm_of_length_le len).mem_iff

theorem length_eq_of_mem_iff (nodupSmall : small.Nodup) (nodupLarge : large.Nodup)
    (same : ∀ x, x ∈ small ↔ x ∈ large) : small.length = large.length :=
  ((List.perm_ext_iff_of_nodup nodupSmall nodupLarge).mpr same).length_eq

end Inclusion

/-! ### What the sanity check gives -/

/-- Partitions with distinct IDs are distinct under any view that shows
the ID. -/
theorem TopicSane.nodup_views {brokerCount : Nat} {topicBrokerVec : List Int} {topic : TTopic}
    (sane : TopicSane brokerCount topicBrokerVec topic) {view : TPartition → Int × Option Int × Int16}
    (showsId : ∀ p, (view p).1 = p.id) :
    (topic.okPartitions.map view).Nodup ∧ (topic.outOfServicePartitions.map view).Nodup := by
  have ids := sane.ids_nodup
  rw [List.map_append, List.nodup_append] at ids
  have sameIds : ∀ partitions : List TPartition, (partitions.map view).map Prod.fst = partitions.map TPartition.id :=
    fun partitions => by simp [showsId]
  exact ⟨(sameIds _ ▸ ids.1).of_map _, (sameIds _ ▸ ids.2.1).of_map _⟩

namespace Sane

variable {metadata : TMetadata}

theorem brokers_nodup (sane : Sane metadata) : metadata.brokers.Nodup :=
  sane.brokerIds_nodup.of_map _

theorem length_keys (sane : Sane metadata) :
    (KeyedList.keys metadata.topicNameToIndex).length = metadata.topics.length := by
  simpa [KeyedList.keys] using congrArg List.length sane.names.indexes

theorem lt_of_lookup (sane : Sane metadata) {name : String} {index : Nat}
    (found : metadata.topicNameToIndex.lookup name = some index) : index < metadata.topics.length := by
  have indexed : index ∈ metadata.topicNameToIndex.map Prod.snd :=
    List.mem_map_of_mem (KeyedList.mem_of_lookup found)
  rw [sane.names.indexes] at indexed
  exact List.mem_range.mp indexed

theorem lookup_of_mem (sane : Sane metadata) {entry : String × Nat} (member : entry ∈ metadata.topicNameToIndex) :
    metadata.topicNameToIndex.lookup entry.1 = some entry.2 :=
  KeyedList.lookup_of_mem sane.names.keys_nodup member

theorem exists_lookup (sane : Sane metadata) {name : String}
    (member : name ∈ KeyedList.keys metadata.topicNameToIndex) :
    ∃ index, metadata.topicNameToIndex.lookup name = some index := by
  obtain ⟨index, stored⟩ := KeyedList.mem_keys.mp member
  exact ⟨index, sane.lookup_of_mem stored⟩

theorem topicSane_getD (sane : Sane metadata) {index : Nat} (within : index < metadata.topics.length) :
    TopicSane metadata.brokers.length metadata.topicBrokerVec (metadata.topics.getD index {}) := by
  rw [List.getD_eq_getElem _ _ within]
  exact sane.sound.topicSane _ (List.getElem_mem within)

theorem nodup_views (sane : Sane metadata) {name : String} {index : Nat}
    (found : metadata.topicNameToIndex.lookup name = some index) :
    ((metadata.topics.getD index {}).okPartitions.map metadata.partView).Nodup ∧
      ((metadata.topics.getD index {}).outOfServicePartitions.map metadata.partView).Nodup :=
  (sane.topicSane_getD (sane.lt_of_lookup found)).nodup_views fun _ => rfl

/-- `TopicBrokerVec` holds the ok partitions of all topics, counted here
topic by topic under their names. -/
theorem vecLength_keys (sane : Sane metadata) :
    metadata.topicBrokerVec.length = ((KeyedList.keys metadata.topicNameToIndex).map fun name =>
      (metadata.topics.getD ((metadata.topicNameToIndex.lookup name).getD 0) {}).okPartitions.length).sum := by
  let count := fun topic : TTopic => topic.okPartitions.length
  have byIndex : (List.range metadata.topics.length).map (fun index => count (metadata.topics.getD index {})) =
      metadata.topics.map count := by
    refine List.ext_getElem (by simp) fun i inRange inTopics => ?_
    simp only [List.getElem_map, List.getElem_range]
    rw [List.getD_eq_getElem _ _ (by simpa using inTopics)]
  have byName : (KeyedList.keys metadata.topicNameToIndex).map
      (fun name => count (metadata.topics.getD ((metadata.topicNameToIndex.lookup name).getD 0) {})) =
      (metadata.topicNameToIndex.map Prod.snd).map (fun index => count (metadata.topics.getD index {})) := by
    rw [KeyedList.keys, List.map_map, List.map_map]
    refine List.map_congr_left fun entry member => ?_
    simp [sane.lookup_of_mem member]
  rw [sane.sound.vecLength, byName, sane.names.indexes, byIndex]

end Sane

/-! ### The three comparisons -/

section Compare

variable {this that : TMetadata}

theorem singleTopicCompare_iff {thisTopic thatTopic : TTopic}
    (thisNodup : (thisTopic.okPartitions.map this.partView).Nodup ∧
      (thisTopic.outOfServicePartitions.map this.partView).Nodup)
    (thatNodup : (thatTopic.okPartitions.map that.partView).Nodup ∧
      (thatTopic.outOfServicePartitions.map that.partView).Nodup) :
    this.singleTopicCompare that thisTopic thatTopic = true ↔
      (∀ view, view ∈ thisTopic.okPartitions.map this.partView ↔ view ∈ thatTopic.okPartitions.map that.partView) ∧
      (∀ view, view ∈ thisTopic.outOfServicePartitions.map this.partView ↔
        view ∈ thatTopic.outOfServicePartitions.map that.partView) := by
  simp only [singleTopicCompare, Bool.and_eq_true, beq_iff_eq, List.all_eq_true, decide_eq_true_eq]
  constructor
  · rintro ⟨⟨⟨okLength, outLength⟩, okIn⟩, outIn⟩
    refine ⟨fun view => ?_, fun view => ?_⟩
    · refine (mem_iff_of_subset thatNodup.1 ?_ (by simp [okLength]) view).symm
      intro _ member
      obtain ⟨p, pMember, rfl⟩ := List.mem_map.mp member
      exact okIn p pMember
    · refine (mem_iff_of_subset thatNodup.2 ?_ (by simp [outLength]) view).symm
      intro _ member
      obtain ⟨p, pMember, rfl⟩ := List.mem_map.mp member
      exact outIn p pMember
  · rintro ⟨sameOk, sameOut⟩
    have okLength := length_eq_of_mem_iff thisNodup.1 thatNodup.1 sameOk
    have outLength := length_eq_of_mem_iff thisNodup.2 thatNodup.2 sameOut
    simp only [List.length_map] at okLength outLength
    exact ⟨⟨⟨okLength, outLength⟩, fun p member => (sameOk _).mpr (List.mem_map_of_mem member)⟩,
      fun p member => (sameOut _).mpr (List.mem_map_of_mem member)⟩

theorem compareBrokers_iff (thatSane : Sane that)
    (sameLength : this.brokers.length = that.brokers.length) :
    this.compareBrokers that = true ↔ ∀ broker, broker ∈ this.brokers ↔ broker ∈ that.brokers := by
  simp only [compareBrokers, List.all_eq_true, decide_eq_true_eq]
  constructor
  · intro inThis broker
    exact (mem_iff_of_subset thatSane.brokers_nodup inThis sameLength.le broker).symm
  · intro same broker member
    exact (same broker).mpr member

/-- `CompareTopics` with the sizes equal: the same names, and each topic
compares equal. -/
theorem compareTopics_iff (thisSane : Sane this) (thatSane : Sane that)
    (sameLength : this.topics.length = that.topics.length) :
    this.compareTopics that = true ↔
      (∀ name, name ∈ KeyedList.keys this.topicNameToIndex ↔ name ∈ KeyedList.keys that.topicNameToIndex) ∧
      ∀ name thisIndex thatIndex, this.topicNameToIndex.lookup name = some thisIndex →
        that.topicNameToIndex.lookup name = some thatIndex →
          this.singleTopicCompare that (this.topics.getD thisIndex {}) (that.topics.getD thatIndex {}) = true := by
  simp only [compareTopics, List.all_eq_true]
  constructor
  · intro each
    -- every name of this one has a topic in that one that compares equal
    have found : ∀ entry ∈ this.topicNameToIndex, ∃ thatIndex,
        that.topicNameToIndex.lookup entry.1 = some thatIndex ∧
          this.singleTopicCompare that (this.topics.getD entry.2 {}) (that.topics.getD thatIndex {}) = true := by
      intro entry member
      have compared := each entry member
      split at compared
      · exact absurd compared Bool.false_ne_true
      · exact ⟨_, by assumption, compared⟩
    refine ⟨fun name => mem_iff_of_subset thisSane.names.keys_nodup (fun name member => ?_) ?_ name, ?_⟩
    · obtain ⟨index, stored⟩ := KeyedList.mem_keys.mp member
      obtain ⟨thatIndex, thatFound, -⟩ := found _ stored
      exact KeyedList.mem_keys_of_mem (KeyedList.mem_of_lookup thatFound)
    · rw [thisSane.length_keys, thatSane.length_keys, sameLength]
    · intro name thisIndex thatIndex thisFound thatFound
      obtain ⟨other, otherFound, compared⟩ := found _ (KeyedList.mem_of_lookup thisFound)
      rw [thatFound, Option.some.injEq] at otherFound
      rwa [otherFound]
  · rintro ⟨sameNames, compared⟩ entry member
    obtain ⟨thatIndex, thatFound⟩ :=
      thatSane.exists_lookup ((sameNames _).mp (KeyedList.mem_keys_of_mem member))
    simp only [thatFound]
    exact compared _ _ _ (thisSane.lookup_of_mem member) thatFound

end Compare

/-- `operator==` on metadata that passes `SanityCheck()` decides whether
the contents are the same. -/
theorem beq_iff_sameContents {this that : TMetadata} (thisSane : Sane this) (thatSane : Sane that) :
    this.beq that = true ↔ SameContents this that := by
  -- each topic compares equal exactly when its partitions are the same
  have topicsIff : (∀ name thisIndex thatIndex, this.topicNameToIndex.lookup name = some thisIndex →
        that.topicNameToIndex.lookup name = some thatIndex →
          this.singleTopicCompare that (this.topics.getD thisIndex {}) (that.topics.getD thatIndex {}) = true) ↔
      ∀ name thisIndex thatIndex, this.topicNameToIndex.lookup name = some thisIndex →
        that.topicNameToIndex.lookup name = some thatIndex →
          (∀ view, view ∈ (this.topics.getD thisIndex {}).okPartitions.map this.partView ↔
            view ∈ (that.topics.getD thatIndex {}).okPartitions.map that.partView) ∧
          (∀ view, view ∈ (this.topics.getD thisIndex {}).outOfServicePartitions.map this.partView ↔
            view ∈ (that.topics.getD thatIndex {}).outOfServicePartitions.map that.partView) := by
    refine forall_congr' fun name => forall_congr' fun thisIndex => forall_congr' fun thatIndex => ?_
    refine imp_congr_right fun thisFound => imp_congr_right fun thatFound => ?_
    exact singleTopicCompare_iff (thisSane.nodup_views thisFound) (thatSane.nodup_views thatFound)
  unfold beq
  constructor
  · intro equal
    split_ifs at equal with sizes
    simp only [not_or, ne_eq, not_not] at sizes
    obtain ⟨brokers, topics⟩ := Bool.and_eq_true_iff.mp equal
    obtain ⟨names, compared⟩ := (compareTopics_iff thisSane thatSane sizes.2.2).mp topics
    exact ⟨(compareBrokers_iff thatSane sizes.1).mp brokers, names, topicsIff.mp compared⟩
  · intro same
    have brokerLength := length_eq_of_mem_iff thisSane.brokers_nodup thatSane.brokers_nodup same.brokers
    have keysPerm := (List.perm_ext_iff_of_nodup thisSane.names.keys_nodup thatSane.names.keys_nodup).mpr
      same.names
    have topicLength : this.topics.length = that.topics.length := by
      rw [← thisSane.length_keys, ← thatSane.length_keys, keysPerm.length_eq]
    -- the vectors hold as many IDs: topic by topic, the ok partitions are as many
    have sameCount : ∀ name ∈ KeyedList.keys this.topicNameToIndex,
        (this.topics.getD ((this.topicNameToIndex.lookup name).getD 0) {}).okPartitions.length =
          (that.topics.getD ((that.topicNameToIndex.lookup name).getD 0) {}).okPartitions.length := by
      intro name member
      obtain ⟨thisIndex, thisFound⟩ := thisSane.exists_lookup member
      obtain ⟨thatIndex, thatFound⟩ := thatSane.exists_lookup ((same.names name).mp member)
      simpa [thisFound, thatFound] using length_eq_of_mem_iff (thisSane.nodup_views thisFound).1
        (thatSane.nodup_views thatFound).1 (same.topics name _ _ thisFound thatFound).1
    -- the vectors hold as many IDs: topic by topic, the ok partitions are as many
    have vecLength : this.topicBrokerVec.length = that.topicBrokerVec.length := by
      rw [thisSane.vecLength_keys, thatSane.vecLength_keys, List.map_congr_left sameCount]
      exact (keysPerm.map _).sum_eq
    rw [if_neg (by simp [brokerLength, topicLength, vecLength]), Bool.and_eq_true_iff,
      compareBrokers_iff thatSane brokerLength, compareTopics_iff thisSane thatSane topicLength]
    exact ⟨same.brokers, same.names, topicsIff.mpr same.topics⟩

theorem SameContents.symm {this that : TMetadata} (same : SameContents this that) : SameContents that this :=
  ⟨fun broker => (same.brokers broker).symm, fun name => (same.names name).symm,
    fun name thatIndex thisIndex thatFound thisFound =>
      ⟨fun view => ((same.topics name thisIndex thatIndex thisFound thatFound).1 view).symm,
        fun view => ((same.topics name thisIndex thatIndex thisFound thatFound).2 view).symm⟩⟩

/-- On metadata that passes `SanityCheck()`, `operator==` is symmetric. -/
theorem beq_comm_of_sane {this that : TMetadata} (thisSane : Sane this) (thatSane : Sane that) :
    this.beq that = that.beq this := by
  rw [Bool.eq_iff_iff, beq_iff_sameContents thisSane thatSane, beq_iff_sameContents thatSane thisSane]
  exact ⟨SameContents.symm, SameContents.symm⟩

/-! ### Builds from reordered calls -/

/-- Calls that differ from others only in the order of the brokers, of the
topics, and of each topic's partitions. -/
structure Reordered (brokers : List TBrokerCall) (topics : List TTopicCalls) (otherBrokers : List TBrokerCall)
    (otherTopics : List TTopicCalls) : Prop where
  brokers : brokers.Perm otherBrokers
  topics : ∃ middle, topics.Perm middle ∧
    List.Forall₂ (fun topic other => topic.name = other.name ∧ topic.partitions.Perm other.partitions) middle otherTopics

/-- No call repeats a Kafka ID, a topic name, or a partition ID of its
topic. -/
structure Distinct (brokers : List TBrokerCall) (topics : List TTopicCalls) : Prop where
  kafkaIds : (brokers.map TBrokerCall.kafkaId).Nodup
  names : (topics.map TTopicCalls.name).Nodup
  partitionIds : ∀ topic ∈ topics, (topic.partitions.map TPartitionCall.partitionId).Nodup

section Reordered

variable {brokers otherBrokers : List TBrokerCall} {topics otherTopics : List TTopicCalls}

theorem Reordered.names (reordered : Reordered brokers topics otherBrokers otherTopics) :
    (topics.map TTopicCalls.name).Perm (otherTopics.map TTopicCalls.name) := by
  obtain ⟨middle, perm, related⟩ := reordered.topics
  have sameNames : middle.map TTopicCalls.name = otherTopics.map TTopicCalls.name := by
    rw [← List.forall₂_eq_eq_eq, List.forall₂_map_left_iff, List.forall₂_map_right_iff]
    exact related.imp fun _ _ both => both.1
  exact sameNames ▸ perm.map _

/-- The topic of a name in the reordered calls has the partitions of the
topic of that name, reordered. -/
theorem Reordered.partitions (reordered : Reordered brokers topics otherBrokers otherTopics)
    (distinct : Distinct brokers topics) {topic other : TTopicCalls} (member : topic ∈ topics)
    (otherMember : other ∈ otherTopics) (sameName : topic.name = other.name) :
    topic.partitions.Perm other.partitions := by
  obtain ⟨middle, perm, related⟩ := reordered.topics
  obtain ⟨position, inOthers, rfl⟩ := List.mem_iff_getElem.mp otherMember
  have inMiddle : position < middle.length := related.length_eq ▸ inOthers
  obtain ⟨sameMatching, partitions⟩ := related.get inMiddle inOthers
  have same : middle[position] = topic :=
    List.inj_on_of_nodup_map distinct.names (perm.symm.subset (List.getElem_mem inMiddle)) member
      (sameMatching.trans sameName.symm)
  exact same ▸ partitions

theorem Reordered.distinct (reordered : Reordered brokers topics otherBrokers otherTopics)
    (distinct : Distinct brokers topics) : Distinct otherBrokers otherTopics := by
  refine ⟨(reordered.brokers.map _).nodup_iff.mp distinct.kafkaIds, reordered.names.nodup_iff.mp distinct.names,
    fun other otherMember => ?_⟩
  obtain ⟨middle, perm, related⟩ := reordered.topics
  have named : other.name ∈ topics.map TTopicCalls.name :=
    reordered.names.symm.subset (List.mem_map_of_mem otherMember)
  obtain ⟨topic, member, sameName⟩ := List.mem_map.mp named
  exact ((reordered.partitions distinct member otherMember sameName).map _).nodup_iff.mp
    (distinct.partitionIds topic member)

end Reordered

/-- Some topic, found under its name, has an ok partition led by the broker
of a Kafka ID. -/
def Leads (metadata : TMetadata) (id : Int) : Prop :=
  ∃ name index, metadata.topicNameToIndex.lookup name = some index ∧
    ∃ view ∈ (metadata.topics.getD index {}).okPartitions.map metadata.partView, view.2.1 = some id

section Built

variable {brokerCalls : List TBrokerCall} {topicCalls : List TTopicCalls} {metadata : TMetadata}

/-- The topic a name finds holds what the first topic call of that name
asks for. -/
theorem Contents.describes_of_lookup (contents : Contents brokerCalls topicCalls metadata) (sane : Sane metadata)
    {name : String} {index : Nat} (found : metadata.topicNameToIndex.lookup name = some index) :
    ∃ call, (name, call) ∈ KeyedList.ofFirst TTopicCalls.name topicCalls ∧
      Describes metadata.brokers (keptCalls (brokerCalls.map TBrokerCall.kafkaId) call.partitions)
        (metadata.topics.getD index {}) := by
  have within := sane.lt_of_lookup found
  have inEntries : index < (KeyedList.ofFirst TTopicCalls.name topicCalls).length :=
    contents.topics.length_eq ▸ within
  -- the name's entry stands at its own index, as the indexes count up
  have atIndex : metadata.topicNameToIndex[index]? = some (name, index) := by
    obtain ⟨position, inNames, stored⟩ := List.mem_iff_getElem.mp (KeyedList.mem_of_lookup found)
    have indexAt := congrArg (fun indexes : List Nat => indexes[position]?) sane.names.indexes
    have namesLength : metadata.topicNameToIndex.length = metadata.topics.length := by
      simpa using congrArg List.length sane.names.indexes
    simp only [List.getElem?_map, List.getElem?_eq_getElem inNames, stored, Option.map_some] at indexAt
    rw [List.getElem?_range (namesLength ▸ inNames)] at indexAt
    rw [Option.some.inj indexAt, List.getElem?_eq_getElem inNames, stored, Option.some.inj indexAt]
  have nameAt : (KeyedList.ofFirst TTopicCalls.name topicCalls)[index].1 = name := by
    have keyAt := congrArg (fun keys : List String => keys[index]?) contents.names
    simp only [KeyedList.keys, List.getElem?_map, atIndex, Option.map_some,
      List.getElem?_eq_getElem inEntries] at keyAt
    exact (Option.some.inj keyAt).symm
  refine ⟨(KeyedList.ofFirst TTopicCalls.name topicCalls)[index].2, ?_, ?_⟩
  · rw [← nameAt]
    exact List.getElem_mem inEntries
  · rw [List.getD_eq_getElem _ _ within]
    exact contents.topics.get inEntries within

/-- A broker is in service exactly when it leads an ok partition. -/
theorem Sane.inService_iff (sane : Sane metadata) {broker : TBroker} (member : broker ∈ metadata.brokers) :
    broker.inService = true ↔ metadata.Leads broker.id := by
  obtain ⟨position, inBrokers, rfl⟩ := List.mem_iff_getElem.mp member
  rw [sane.sound.inService position inBrokers]
  constructor
  · rintro ⟨topic, topicMember, p, okMember, rfl⟩
    obtain ⟨index, inTopics, rfl⟩ := List.mem_iff_getElem.mp topicMember
    have indexed : index ∈ metadata.topicNameToIndex.map Prod.snd := by
      rw [sane.names.indexes]
      exact List.mem_range.mpr inTopics
    obtain ⟨entry, entryMember, rfl⟩ := List.mem_map.mp indexed
    refine ⟨entry.1, entry.2, sane.lookup_of_mem entryMember, metadata.partView p, ?_, ?_⟩
    · rw [List.getD_eq_getElem _ _ inTopics]
      exact List.mem_map_of_mem okMember
    · simp [partView, brokerIdAt, List.getElem?_eq_getElem inBrokers]
  · rintro ⟨name, index, found, view, viewMember, leader⟩
    obtain ⟨p, okMember, rfl⟩ := List.mem_map.mp viewMember
    have within := sane.lt_of_lookup found
    obtain ⟨leaderWithin, sameId⟩ : ∃ h : p.brokerIndex < metadata.brokers.length,
        metadata.brokers[p.brokerIndex].id = metadata.brokers[position].id := by
      simp only [partView, brokerIdAt] at leader
      obtain ⟨leaderBroker, atLeader, sameId⟩ := Option.map_eq_some_iff.mp leader
      obtain ⟨leaderWithin, rfl⟩ := List.getElem?_eq_some_iff.mp atLeader
      exact ⟨leaderWithin, sameId⟩
    have samePosition : p.brokerIndex = position := by
      have distinct := List.nodup_iff_injective_get.mp sane.brokerIds_nodup
      exact congrArg Fin.val (@distinct ⟨p.brokerIndex, by simpa using leaderWithin⟩
        ⟨position, by simpa using inBrokers⟩ (by simpa using sameId))
    refine ⟨metadata.topics.getD index {}, ?_, p, okMember, samePosition⟩
    rw [List.getD_eq_getElem _ _ within]
    exact List.getElem_mem within

end Built

/-! ### Same contents from the same calls -/

section Same

variable {this that : TMetadata}

/-- With the same names and the same ok partitions under each, the same
Kafka IDs lead some ok partition. -/
theorem Leads.of_same (thatSane : Sane that)
    (names : ∀ name, name ∈ KeyedList.keys this.topicNameToIndex ↔ name ∈ KeyedList.keys that.topicNameToIndex)
    (topics : ∀ name thisIndex thatIndex, this.topicNameToIndex.lookup name = some thisIndex →
      that.topicNameToIndex.lookup name = some thatIndex →
        ∀ view, view ∈ (this.topics.getD thisIndex {}).okPartitions.map this.partView ↔
          view ∈ (that.topics.getD thatIndex {}).okPartitions.map that.partView)
    {id : Int} (leads : this.Leads id) : that.Leads id := by
  obtain ⟨name, thisIndex, thisFound, view, viewMember, leader⟩ := leads
  obtain ⟨thatIndex, thatFound⟩ :=
    thatSane.exists_lookup ((names name).mp (KeyedList.mem_keys_of_mem (KeyedList.mem_of_lookup thisFound)))
  exact ⟨name, thatIndex, thatFound, view, (topics name thisIndex thatIndex thisFound thatFound view).mp viewMember,
    leader⟩

/-- Brokers with the same records, whose Kafka IDs lead the same
partitions, are the same brokers. -/
theorem mem_brokers_of_same (thisSane : Sane this) (thatSane : Sane that)
    (records : ∀ record, record ∈ this.brokers.map TBroker.record ↔ record ∈ that.brokers.map TBroker.record)
    (leads : ∀ id, this.Leads id ↔ that.Leads id) {broker : TBroker} (member : broker ∈ this.brokers) :
    broker ∈ that.brokers := by
  obtain ⟨other, otherMember, sameRecord⟩ :=
    List.mem_map.mp ((records broker.record).mp (List.mem_map_of_mem member))
  have sameService : other.inService = broker.inService := by
    rw [Bool.eq_iff_iff, thatSane.inService_iff otherMember, thisSane.inService_iff member]
    have sameId : other.id = broker.id := congrArg Prod.fst sameRecord
    rw [sameId, leads]
  have same : other = broker := by
    obtain ⟨id, hostname, port, inService⟩ := other
    simp only [TBroker.record, Prod.mk.injEq] at sameRecord
    obtain ⟨rfl, rfl, rfl⟩ := sameRecord
    simp only at sameService
    rw [sameService]
  exact same ▸ otherMember

variable {brokers otherBrokers : List TBrokerCall} {topics otherTopics : List TTopicCalls}

/-- Builds from the same calls, reordered, with no repeated Kafka ID, topic
name or partition ID, have the same contents, whatever their shuffles. -/
theorem Contents.sameContents (thisContents : Contents brokers topics this)
    (thatContents : Contents otherBrokers otherTopics that) (thisSane : Sane this) (thatSane : Sane that)
    (reordered : Reordered brokers topics otherBrokers otherTopics) (distinct : Distinct brokers topics) :
    SameContents this that := by
  have otherDistinct := reordered.distinct distinct
  have sameKnown : ∀ id, id ∈ brokers.map TBrokerCall.kafkaId ↔ id ∈ otherBrokers.map TBrokerCall.kafkaId :=
    fun id => (reordered.brokers.map _).mem_iff
  have names : ∀ name, name ∈ KeyedList.keys this.topicNameToIndex ↔ name ∈ KeyedList.keys that.topicNameToIndex := by
    intro name
    rw [thisContents.names, thatContents.names, KeyedList.ofFirst_of_nodup distinct.names,
      KeyedList.ofFirst_of_nodup otherDistinct.names]
    simpa [KeyedList.keys, List.map_map] using reordered.names.mem_iff
  -- a name finds, on both sides, a topic call of that name, with the same partitions reordered
  have topics : ∀ name thisIndex thatIndex, this.topicNameToIndex.lookup name = some thisIndex →
      that.topicNameToIndex.lookup name = some thatIndex →
        ((this.topics.getD thisIndex {}).okPartitions.map this.partView).Perm
          ((that.topics.getD thatIndex {}).okPartitions.map that.partView) ∧
        ((this.topics.getD thisIndex {}).outOfServicePartitions.map this.partView).Perm
          ((that.topics.getD thatIndex {}).outOfServicePartitions.map that.partView) := by
    intro name thisIndex thatIndex thisFound thatFound
    obtain ⟨call, entry, describes⟩ := thisContents.describes_of_lookup thisSane thisFound
    obtain ⟨other, otherEntry, otherDescribes⟩ := thatContents.describes_of_lookup thatSane thatFound
    obtain ⟨callMember, callName⟩ := KeyedList.mem_ofFirst entry
    obtain ⟨otherMember, otherName⟩ := KeyedList.mem_ofFirst otherEntry
    have partitions := reordered.partitions distinct callMember otherMember (callName.trans otherName.symm)
    have kept : (keptCalls (brokers.map TBrokerCall.kafkaId) call.partitions).Perm
        (keptCalls (otherBrokers.map TBrokerCall.kafkaId) other.partitions) := by
      rw [keptCalls_of_nodup (distinct.partitionIds call callMember),
        keptCalls_of_nodup (otherDistinct.partitionIds other otherMember)]
      simp only [sameKnown]
      exact partitions.filter _
    exact ⟨describes.ok.trans (((kept.filter _).map _).trans otherDescribes.ok.symm),
      describes.outOfService.trans (((kept.filter _).map _).trans otherDescribes.outOfService.symm)⟩
  have okTopics : ∀ name thisIndex thatIndex, this.topicNameToIndex.lookup name = some thisIndex →
      that.topicNameToIndex.lookup name = some thatIndex →
        ∀ view, view ∈ (this.topics.getD thisIndex {}).okPartitions.map this.partView ↔
          view ∈ (that.topics.getD thatIndex {}).okPartitions.map that.partView :=
    fun name thisIndex thatIndex thisFound thatFound view =>
      (topics name thisIndex thatIndex thisFound thatFound).1.mem_iff
  have records : ∀ record, record ∈ this.brokers.map TBroker.record ↔ record ∈ that.brokers.map TBroker.record := by
    intro record
    rw [thisContents.brokers.mem_iff, thatContents.brokers.mem_iff, KeyedList.ofFirst_of_nodup distinct.kafkaIds,
      KeyedList.ofFirst_of_nodup otherDistinct.kafkaIds]
    simpa [List.map_map] using (reordered.brokers.map _).mem_iff
  have leads : ∀ id, this.Leads id ↔ that.Leads id := fun id =>
    ⟨Leads.of_same thatSane names okTopics,
      Leads.of_same thisSane (fun name => (names name).symm)
        fun name thatIndex thisIndex thatFound thisFound view => (okTopics name thisIndex thatIndex thisFound thatFound view).symm⟩
  refine ⟨fun broker => ⟨mem_brokers_of_same thisSane thatSane records leads,
      mem_brokers_of_same thatSane thisSane (fun record => (records record).symm) fun id => (leads id).symm⟩,
    names, fun name thisIndex thatIndex thisFound thatFound =>
      ⟨fun view => (topics name thisIndex thatIndex thisFound thatFound).1.mem_iff,
        fun view => (topics name thisIndex thatIndex thisFound thatFound).2.mem_iff⟩⟩

end Same

/-! ### `operator==` on built metadata -/

section OfCalls

variable (engine otherEngine : TRandomEngine) (brokers otherBrokers : List TBrokerCall)
  (topics otherTopics : List TTopicCalls)

/-- `operator==` on two built metadata objects decides whether they have
the same contents, so it is symmetric; and builds from the same calls in
another order, with any shuffles, compare equal when no call repeats a
Kafka ID, a topic name or a partition ID of its topic. -/
theorem ofCalls_beq :
    ((TMetadata.ofCalls engine brokers topics).beq (TMetadata.ofCalls otherEngine otherBrokers otherTopics) = true ↔
        SameContents (TMetadata.ofCalls engine brokers topics) (TMetadata.ofCalls otherEngine otherBrokers otherTopics)) ∧
      (TMetadata.ofCalls engine brokers topics).beq (TMetadata.ofCalls otherEngine otherBrokers otherTopics) =
        (TMetadata.ofCalls otherEngine otherBrokers otherTopics).beq (TMetadata.ofCalls engine brokers topics) ∧
      (Reordered brokers topics otherBrokers otherTopics → Distinct brokers topics →
        (TMetadata.ofCalls engine brokers topics).beq (TMetadata.ofCalls otherEngine otherBrokers otherTopics) = true) := by
  have thisSane := ofCalls_sane engine brokers topics
  have thatSane := ofCalls_sane otherEngine otherBrokers otherTopics
  refine ⟨beq_iff_sameContents thisSane thatSane, beq_comm_of_sane thisSane thatSane, fun reordered distinct => ?_⟩
  exact (beq_iff_sameContents thisSane thatSane).mpr
    ((ofCalls_contents engine brokers topics).sameContents (ofCalls_contents otherEngine otherBrokers otherTopics)
      thisSane thatSane reordered distinct)

end OfCalls

/-- Two brokers, and one topic whose two partitions, one ok and one out of
service, name them; then the same calls in the other order, with another
shuffle. -/
theorem ofCalls_beq_reordered :
    Reordered [⟨1, "a", 9092⟩, ⟨2, "b", 9092⟩] [⟨"t", [⟨0, 1, true, 0⟩, ⟨1, 2, false, 3⟩]⟩]
        [⟨2, "b", 9092⟩, ⟨1, "a", 9092⟩] [⟨"t", [⟨1, 2, false, 3⟩, ⟨0, 1, true, 0⟩]⟩] ∧
      Distinct [⟨1, "a", 9092⟩, ⟨2, "b", 9092⟩] [⟨"t", [⟨0, 1, true, 0⟩, ⟨1, 2, false, 3⟩]⟩] ∧
      (TMetadata.ofCalls ⟨fun _ => 0, 0⟩ [⟨1, "a", 9092⟩, ⟨2, "b", 9092⟩]
          [⟨"t", [⟨0, 1, true, 0⟩, ⟨1, 2, false, 3⟩]⟩]).beq
        (TMetadata.ofCalls ⟨fun _ => 1, 0⟩ [⟨2, "b", 9092⟩, ⟨1, "a", 9092⟩]
          [⟨"t", [⟨1, 2, false, 3⟩, ⟨0, 1, true, 0⟩]⟩]) = true := by
  have reordered : Reordered [⟨1, "a", 9092⟩, ⟨2, "b", 9092⟩] [⟨"t", [⟨0, 1, true, 0⟩, ⟨1, 2, false, 3⟩]⟩]
      [⟨2, "b", 9092⟩, ⟨1, "a", 9092⟩] [⟨"t", [⟨1, 2, false, 3⟩, ⟨0, 1, true, 0⟩]⟩] :=
    ⟨List.Perm.swap _ _ _, _, List.Perm.refl _, .cons ⟨rfl, List.Perm.swap _ _ _⟩ .nil⟩
  have distinct : Distinct [⟨1, "a", 9092⟩, ⟨2, "b", 9092⟩] [⟨"t", [⟨0, 1, true, 0⟩, ⟨1, 2, false, 3⟩]⟩] :=
    ⟨by decide, by decide, by decide⟩
  exact ⟨reordered, distinct, (ofCalls_beq _ _ _ _ _ _).2.2 reordered distinct⟩

/-- With a repeated Kafka ID the first `AddBroker` wins, so the order of the
calls matters: the builds differ in the broker's host name. -/
theorem ofCalls_beq_repeated_broker :
    (TMetadata.ofCalls ⟨fun _ => 0, 0⟩ [⟨1, "a", 9092⟩, ⟨1, "b", 9092⟩] []).beq
      (TMetadata.ofCalls ⟨fun _ => 0, 0⟩ [⟨1, "b", 9092⟩, ⟨1, "a", 9092⟩] []) = false := by
  decide

end Dory.TMetadata
