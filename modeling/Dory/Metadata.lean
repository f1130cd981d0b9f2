/-
Module: Dory.Metadata
Purpose: The Kafka cluster metadata (src/dory/metadata.{h,cc}) and the
  builder that makes it from a metadata response.  The builder takes the
  brokers (`AddBroker`; a duplicate Kafka ID is ignored), then each topic
  (`OpenTopic`, refused for a duplicate name) with its partitions
  (`AddPartitionToTopic`, ignored for an unknown broker or a duplicate
  partition ID), which go to the ok or the out-of-service partitions.
  `CloseTopic` sorts the ok partitions by broker index and partition ID,
  lays the IDs of each broker's run as one chunk at the end of
  `TopicBrokerVec`, marks the brokers of the runs in service, builds
  `AllPartitions` sorted by ID and shuffles the ok partitions.  `Build`
  moves the in-service brokers to the front (`GroupInServiceBrokers`) and
  renames every broker index.  `operator==` compares brokers, topic names and
  partition triples as sets.  Asserts are not checked (release build); the
  "Bug!!!" branches return as the source does.
Trusted boundary: `std::shuffle` with the builder's clock-seeded engine is
  modelled through the engine's outputs, any stream of numbers, each of
  which places one item (`TRandomEngine.shuffle`).  `std::sort` is an
  insertion sort by the same order: the two sorts of `CloseTopic` sort items
  with distinct keys, so their result does not depend on the algorithm; the
  sort of `GroupInServiceBrokers` only puts in-service brokers first, leaves
  the order within each group unspecified, and the model keeps it.
Main exports: TMetadata.TBroker, TMetadata.TPartition, TMetadata.TTopic,
  TMetadata.TBuilder, TMetadata, TRandomEngine.shuffle, chunkLoop,
  closeTopic, groupInServiceBrokers, build, TMetadata.ofCalls,
  findTopicIndex, findPartitionChoices, beq
-/
import Mathlib
import Dory.Foundation.KeyedList
import Dory.Foundation.Runs

namespace Dory

open Dory.Foundation

/-- The builder's `std::default_random_engine`, seeded from the clock: the
stream of its outputs, and how many it has given. -/
structure TRandomEngine where
  draws : Nat → Nat
  used : Nat := 0

/-- `std::shuffle(first, last, RandomEngine)`: each item in turn goes to a
place among the items placed so far, chosen by the engine's next output
(the inside-out form of Fisher–Yates, which reaches every order). -/
def TRandomEngine.shuffle {α : Type} (engine : TRandomEngine) (items : List α) :
    TRandomEngine × List α :=
  items.foldl
    (fun state item =>
      ({ state.1 with used := state.1.used + 1 },
        state.2.insertIdx (state.1.draws state.1.used % (state.2.length + 1)) item))
    (engine, [])

/-- The shuffle places every item once: the result is a reordering. -/
theorem TRandomEngine.shuffle_perm {α : Type} (engine : TRandomEngine) (items : List α) :
    (engine.shuffle items).2.Perm items := by
  -- after each item the placed ones are a reordering of those taken so far
  have placed : ∀ (state : TRandomEngine × List α) (items : List α),
      (items.foldl (fun state item =>
          ({ state.1 with used := state.1.used + 1 },
            state.2.insertIdx (state.1.draws state.1.used % (state.2.length + 1)) item)) state).2.Perm
        (items ++ state.2) := by
    intro state items
    induction items generalizing state with
    | nil => simp
    | cons item rest ih =>
        refine (ih _).trans ?_
        have inserted := List.perm_insertIdx item state.2
          (Nat.le_of_lt_succ (Nat.mod_lt (state.1.draws state.1.used) (Nat.succ_pos state.2.length)))
        exact (inserted.append_left rest).trans List.perm_middle
  simpa [TRandomEngine.shuffle] using placed (engine, []) items

namespace TMetadata

/-- `TMetadata::TBroker`. -/
structure TBroker where
  id : Int
  hostname : String
  port : UInt16
  inService : Bool := false
deriving DecidableEq, Repr

/-- `MarkInService()`. -/
def TBroker.markInService (broker : TBroker) : TBroker :=
  { broker with inService := true }

/-- `TMetadata::TPartition`: Kafka's partition ID, the index of its leader
in the broker vector, and Kafka's error code. -/
structure TPartition where
  id : Int
  brokerIndex : Nat
  errorCode : Int16
deriving DecidableEq, Repr

namespace TPartition

/-- The order `CloseTopic` sorts `OkPartitions` in: by broker index, then
by partition ID. -/
def BrokerThenId (x y : TPartition) : Prop :=
  x.brokerIndex < y.brokerIndex ∨ (x.brokerIndex = y.brokerIndex ∧ x.id ≤ y.id)

/-- The order of `AllPartitions`: by partition ID. -/
def ById (x y : TPartition) : Prop :=
  x.id ≤ y.id

instance : DecidableRel BrokerThenId := fun x y =>
  inferInstanceAs (Decidable (x.brokerIndex < y.brokerIndex ∨ (x.brokerIndex = y.brokerIndex ∧ x.id ≤ y.id)))

instance : DecidableRel ById := fun x y => inferInstanceAs (Decidable (x.id ≤ y.id))

end TPartition

/-- `TPartitionChoices`: where a topic's chunk for one broker lies in
`TopicBrokerVec`. -/
structure TPartitionChoices where
  topicBrokerVecIndex : Nat
  topicBrokerVecNumItems : Nat
deriving DecidableEq, Repr

/-- `TMetadata::TTopic`.  `PartitionChoiceMap` is an `unordered_map` from
broker index to chunk; the list order is one admissible iteration order. -/
structure TTopic where
  okPartitions : List TPartition := []
  outOfServicePartitions : List TPartition := []
  allPartitions : List TPartition := []
  partitionChoiceMap : List (Nat × TPartitionChoices) := []
deriving DecidableEq, Repr

/-- The topic with one more partition, ok when the caller can send to it. -/
def TTopic.withPartition (canSendToPartition : Bool) (partition : TPartition) (topic : TTopic) : TTopic :=
  if canSendToPartition then { topic with okPartitions := topic.okPartitions ++ [partition] }
  else { topic with outOfServicePartitions := topic.outOfServicePartitions ++ [partition] }

/-- `TMetadata::TBuilder`.  `State` and `CurrentTopicName` only feed asserts
and log lines and are left out. -/
structure TBuilder where
  randomEngine : TRandomEngine
  brokerMap : List (Int × Nat) := []
  currentTopicIndex : Nat := 0
  currentTopicPartitions : List Int := []
  brokers : List TBroker := []
  inServiceBrokerCount : Nat := 0
  topicBrokerVec : List Int := []
  topics : List TTopic := []
  topicNameToIndex : List (String × Nat) := []

end TMetadata

/-- `TMetadata`. -/
structure TMetadata where
  brokers : List TMetadata.TBroker
  inServiceBrokerCount : Nat
  topicBrokerVec : List Int
  topics : List TMetadata.TTopic
  topicNameToIndex : List (String × Nat)
deriving DecidableEq, Repr

namespace TMetadata

/-! ### The builder -/

namespace TBuilder

/-- `AddBroker`: a new Kafka ID gets the next broker index; a duplicate is
counted, logged and ignored. -/
def addBroker (builder : TBuilder) (kafkaId : Int) (hostname : String) (port : UInt16) : TBuilder :=
  if kafkaId ∈ KeyedList.keys builder.brokerMap then builder
  else
    { builder with
      brokerMap := builder.brokerMap ++ [(kafkaId, builder.brokers.length)]
      brokers := builder.brokers ++ [{ id := kafkaId, hostname, port }] }

/-- `OpenTopic`: true and a new empty topic for a new name, false for a
duplicate. -/
def openTopic (builder : TBuilder) (name : String) : Bool × TBuilder :=
  if name ∈ KeyedList.keys builder.topicNameToIndex then (false, builder)
  else
    (true,
      { builder with
        topicNameToIndex := builder.topicNameToIndex ++ [(name, builder.topics.length)]
        currentTopicIndex := builder.topics.length
        topics := builder.topics ++ [{}]
        currentTopicPartitions := [] })

/-- `AddPartitionToTopic`: a partition of a known broker whose ID the topic
has not had goes to the ok or the out-of-service partitions.  The ID is
recorded before the range check of `CurrentTopicIndex`, as in the source. -/
def addPartitionToTopic (builder : TBuilder) (partitionId brokerId : Int)
    (canSendToPartition : Bool) (errorCode : Int16) : TBuilder :=
  match builder.brokerMap.lookup brokerId with
  | none => builder
  | some brokerIndex =>
      if builder.brokers.length ≤ brokerIndex then builder
      else if partitionId ∈ builder.currentTopicPartitions then builder
      else
        let builder := { builder with currentTopicPartitions := builder.currentTopicPartitions ++ [partitionId] }
        if builder.topics.length ≤ builder.currentTopicIndex then builder
        else
          let partition : TPartition := { id := partitionId, brokerIndex, errorCode }
          { builder with
            topics := builder.topics.modify builder.currentTopicIndex (TTopic.withPartition canSendToPartition partition) }

end TBuilder

/-- What the loop of `CloseTopic` changes: the brokers, the topic's
`PartitionChoiceMap` and `TopicBrokerVec`. -/
structure TChunkState where
  brokers : List TBroker
  partitionChoiceMap : List (Nat × TPartitionChoices)
  topicBrokerVec : List Int

/-- The loop of `CloseTopic` over the runs of the sorted ok partitions:
`iter1` is at the first partition of a run and the inner `while` moves
`iter2` past the run of `iter1`'s broker index.  For each run the broker
is marked in service, the map gets the run's chunk
`(TopicBrokerVec.size(), iter2 - iter1)`, and the run's IDs go at the end of
`TopicBrokerVec`.  A broker index out of range returns from `CloseTopic`
with what was done so far (`.error`). -/
def chunkLoop (state : TChunkState) : List (List TPartition) → Except TChunkState TChunkState
  | [] => .ok state
  | [] :: runs => chunkLoop state runs
  | (first :: rest) :: runs =>
      if first.brokerIndex < state.brokers.length then
        chunkLoop
          { brokers := state.brokers.modify first.brokerIndex TBroker.markInService
            partitionChoiceMap := KeyedList.insert state.partitionChoiceMap first.brokerIndex
              ⟨state.topicBrokerVec.length, rest.length + 1⟩
            topicBrokerVec := state.topicBrokerVec ++ (first :: rest).map TPartition.id }
          runs
      else .error state

namespace TBuilder

/-- `CloseTopic`. -/
def closeTopic (builder : TBuilder) : TBuilder :=
  match builder.topics[builder.currentTopicIndex]? with
  | none => builder
  | some topic =>
      let sorted := topic.okPartitions.insertionSort TPartition.BrokerThenId
      let start : TChunkState := ⟨builder.brokers, topic.partitionChoiceMap, builder.topicBrokerVec⟩
      match chunkLoop start (runs TPartition.brokerIndex sorted) with
      | .error state =>
          { builder with
            brokers := state.brokers
            topicBrokerVec := state.topicBrokerVec
            topics := builder.topics.set builder.currentTopicIndex
              { topic with okPartitions := sorted, partitionChoiceMap := state.partitionChoiceMap } }
      | .ok state =>
          let allPartitions := (sorted ++ topic.outOfServicePartitions).insertionSort TPartition.ById
          let shuffled := builder.randomEngine.shuffle sorted
          { builder with
            randomEngine := shuffled.1
            brokers := state.brokers
            topicBrokerVec := state.topicBrokerVec
            topics := builder.topics.set builder.currentTopicIndex
              { okPartitions := shuffled.2
                outOfServicePartitions := topic.outOfServicePartitions
                allPartitions
                partitionChoiceMap := state.partitionChoiceMap } }

/-- `broker_index_reorder` after its `std::sort`: the indexes of the
in-service brokers, then those of the others.  `std::sort` leaves the order
of indexes whose brokers compare equal unspecified; the model takes them in
index order, as a stable sort would. -/
def brokerIndexReorder (brokers : List TBroker) : List Nat :=
  (List.range brokers.length).filter (fun i => brokers[i]?.any TBroker.inService) ++
    (List.range brokers.length).filter (fun i => !brokers[i]?.any TBroker.inService)

end TBuilder

/-- A partition whose broker index goes through `old_indexes_to_new`. -/
def TPartition.renameBroker (oldIndexesToNew : Nat → Nat) (partition : TPartition) : TPartition :=
  { partition with brokerIndex := oldIndexesToNew partition.brokerIndex }

/-- The loop body of `GroupInServiceBrokers` for one topic: every partition
list, and the keys of `PartitionChoiceMap` through a new map. -/
def TTopic.renameBrokers (oldIndexesToNew : Nat → Nat) (topic : TTopic) : TTopic :=
  { okPartitions := topic.okPartitions.map (TPartition.renameBroker oldIndexesToNew)
    outOfServicePartitions := topic.outOfServicePartitions.map (TPartition.renameBroker oldIndexesToNew)
    allPartitions := topic.allPartitions.map (TPartition.renameBroker oldIndexesToNew)
    partitionChoiceMap := topic.partitionChoiceMap.foldl
      (fun map entry => KeyedList.insert map (oldIndexesToNew entry.1) entry.2) [] }

namespace TBuilder

/-- `GroupInServiceBrokers`: the brokers in the order of
`broker_index_reorder`, the length of their in-service prefix, and every
topic renamed through `old_indexes_to_new`, which sends an old index to its
place in `broker_index_reorder`. -/
def groupInServiceBrokers (builder : TBuilder) : TBuilder :=
  let reorder := brokerIndexReorder builder.brokers
  let brokers := reorder.filterMap (builder.brokers[·]?)
  { builder with
    brokers
    inServiceBrokerCount := (brokers.takeWhile TBroker.inService).length
    topics := builder.topics.map (TTopic.renameBrokers fun old => reorder.idxOf old) }

/-- `Build`: the metadata made of the regrouped builder's vectors.  The
builder's `Reset` afterwards is left out: no caller uses the builder again. -/
def build (builder : TBuilder) : TMetadata :=
  let grouped := builder.groupInServiceBrokers
  { brokers := grouped.brokers
    inServiceBrokerCount := grouped.inServiceBrokerCount
    topicBrokerVec := grouped.topicBrokerVec
    topics := grouped.topics
    topicNameToIndex := grouped.topicNameToIndex }

end TBuilder

/-! ### A builder that follows its protocol -/

/-- The arguments of an `AddBroker` call. -/
structure TBrokerCall where
  kafkaId : Int
  hostname : String
  port : UInt16
deriving DecidableEq, Repr

/-- The arguments of an `AddPartitionToTopic` call. -/
structure TPartitionCall where
  partitionId : Int
  brokerId : Int
  canSendToPartition : Bool
  errorCode : Int16
deriving DecidableEq, Repr

/-- An `OpenTopic` call, and the partitions its caller adds when it
returns true. -/
structure TTopicCalls where
  name : String
  partitions : List TPartitionCall
deriving DecidableEq, Repr

namespace TBuilder

/-- The calls of one topic: `OpenTopic`, and when it returns true the
`AddPartitionToTopic` calls and `CloseTopic`. -/
def addTopic (builder : TBuilder) (topic : TTopicCalls) : TBuilder :=
  match builder.openTopic topic.name with
  | (false, builder) => builder
  | (true, builder) =>
      (topic.partitions.foldl
        (fun builder call =>
          builder.addPartitionToTopic call.partitionId call.brokerId call.canSendToPartition call.errorCode)
        builder).closeTopic

/-- The brokers' calls, between `OpenBrokerList` and `CloseBrokerList`
(which only move the builder's `State`). -/
def addBrokers (builder : TBuilder) (brokers : List TBrokerCall) : TBuilder :=
  brokers.foldl (fun builder call => builder.addBroker call.kafkaId call.hostname call.port) builder

end TBuilder

/-- The metadata a new builder makes from calls that follow its protocol,
as `BuildMetadataFromResponse` makes them: the brokers, then the topics,
then `Build`. -/
def ofCalls (engine : TRandomEngine) (brokers : List TBrokerCall) (topics : List TTopicCalls) : TMetadata :=
  (topics.foldl TBuilder.addTopic (TBuilder.addBrokers { randomEngine := engine } brokers)).build

/-! ### Reading the metadata -/

/-- `FindTopicIndex`: the index of a topic; none (the source's -1) for an
unknown topic or an index out of range. -/
def findTopicIndex (metadata : TMetadata) (topic : String) : Option Nat :=
  match metadata.topicNameToIndex.lookup topic with
  | none => none
  | some index => if index < metadata.topics.length then some index else none

/-- The partition IDs of a chunk of `TopicBrokerVec`. -/
def chunk (topicBrokerVec : List Int) (choices : TPartitionChoices) : List Int :=
  (topicBrokerVec.drop choices.topicBrokerVecIndex).take choices.topicBrokerVecNumItems

/-- `FindPartitionChoices`: the partition IDs of a topic's chunk for a
broker; none (the source's null pointer) for a broker without one, and on
the "Bug!!!" paths. -/
def findPartitionChoices (metadata : TMetadata) (topic : String) (brokerIndex : Nat) : Option (List Int) :=
  match metadata.findTopicIndex topic with
  | none => none
  | some topicIndex =>
      if metadata.brokers.length ≤ brokerIndex then none
      else
        match ((metadata.topics.getD topicIndex {}).partitionChoiceMap).lookup brokerIndex with
        | none => none
        | some choices =>
            if metadata.topicBrokerVec.length ≤ choices.topicBrokerVecIndex then none
            else if metadata.topicBrokerVec.length - choices.topicBrokerVecIndex < choices.topicBrokerVecNumItems then none
            else if choices.topicBrokerVecNumItems = 0 then none
            else some (chunk metadata.topicBrokerVec choices)

/-! ### Equality -/

/-- The Kafka ID of the broker at an index (none past the end, where the
source would read out of bounds). -/
def brokerIdAt (metadata : TMetadata) (index : Nat) : Option Int :=
  metadata.brokers[index]?.map TBroker.id

/-- `t_part`: a partition as `operator==` compares it, with the Kafka ID
of its leader in place of the broker index. -/
def partView (metadata : TMetadata) (partition : TPartition) : Int × Option Int × Int16 :=
  (partition.id, metadata.brokerIdAt partition.brokerIndex, partition.errorCode)

/-- `CompareBrokers`: every broker of `that` is one of `this`. -/
def compareBrokers (this that : TMetadata) : Bool :=
  that.brokers.all (· ∈ this.brokers)

/-- `SingleTopicCompare`: the partition lists have the same sizes, and every
partition of `that` is, as a triple, one of `this`. -/
def singleTopicCompare (this that : TMetadata) (thisTopic thatTopic : TTopic) : Bool :=
  thisTopic.okPartitions.length == thatTopic.okPartitions.length &&
    thisTopic.outOfServicePartitions.length == thatTopic.outOfServicePartitions.length &&
    thatTopic.okPartitions.all (fun p => that.partView p ∈ thisTopic.okPartitions.map this.partView) &&
    thatTopic.outOfServicePartitions.all
      (fun p => that.partView p ∈ thisTopic.outOfServicePartitions.map this.partView)

/-- `CompareTopics`: every topic name of `this` is one of `that`, with a
topic that compares equal.  (An index out of range, which the source would
read out of bounds, reads an empty topic.) -/
def compareTopics (this that : TMetadata) : Bool :=
  this.topicNameToIndex.all fun entry =>
    match that.topicNameToIndex.lookup entry.1 with
    | none => false
    | some thatIndex =>
        this.singleTopicCompare that (this.topics.getD entry.2 {}) (that.topics.getD thatIndex {})

/-- `operator==`. -/
def beq (this that : TMetadata) : Bool :=
  if this.brokers.length ≠ that.brokers.length ∨ this.topicBrokerVec.length ≠ that.topicBrokerVec.length ∨
      this.topics.length ≠ that.topics.length then false
  else this.compareBrokers that && this.compareTopics that

end TMetadata

end Dory
