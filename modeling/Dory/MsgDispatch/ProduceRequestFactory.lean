/-
Module: Dory.MsgDispatch.ProduceRequestFactory
Purpose: How `TProduceRequestFactory` (src/dory/msg_dispatch/
  produce_request_factory.cc) takes the messages of one produce request off
  its input queue.  `AddFirstMsg` takes the first message whatever its size;
  the loop of `BuildRequestContents` then takes front messages with
  `TryConsumeFrontMsg` until one would take the request past
  `ProduceRequestDataLimit` or, for a topic with a compression codec, its
  message set past `MessageMaxBytes`.  An AnyPartition message gets the
  partition its topic's `TAnyPartitionChooser` (any_partition_chooser.h)
  holds for the request; at the end the choosers of the topics in the result
  are cleared, and a chooser whose choice was used moves on to the next
  partition.  The result is a `std::map` of topics to `std::map`s of
  partitions to message sets (common.h).  Asserts are faults, as a debug
  build runs them.
Trusted boundary: none
Main exports: TFactoryFault, TPartitionedMsg, TAnyPartitionChooser, TTopicData,
  TMsgSet, TRequestContents, TFactoryConf, TProduceRequestFactory,
  choosePartition, tryConsumeFrontMsg, consumeBatch, consumeQueue,
  addFirstMsg, buildRequestContents
-/
import Dory.Msg
import Dory.Foundation.OrderedMap
import Dory.Foundation.Simulation
import Mathlib

namespace Dory.MsgDispatch

open Dory.Foundation

/-- What building a request can run into: an `assert()` whose condition is
false, and `Count % num_choices` in `TAnyPartitionChooser::Choose` when
`FindPartitionChoices` found no partition of the topic led by the broker. -/
inductive TFactoryFault where
  | assertionFailure
  | divisionByZero
deriving DecidableEq, Repr

/-- A message with the partition `GetPartition()` returns: set by the router
for a PartitionKey message, and by the factory for an AnyPartition one. -/
structure TPartitionedMsg where
  msg : TMsg
  partition : Int
deriving DecidableEq, Repr

/-! ### The chooser of AnyPartition partitions -/

/-- `TAnyPartitionChooser`; `Count` is a 64-bit `size_t`. -/
structure TAnyPartitionChooser where
  count : UInt64 := 0
  choice : Option Int := none
  choiceUsed : Bool := false
deriving DecidableEq, Repr

namespace TAnyPartitionChooser

/-- `Choose`: entry `Count % num_choices` of the choice vector, given here as
the list of partitions `FindPartitionChoices` returns, empty when it returns
none; the modulus is then 0 and the division faults. -/
def choose (chooser : TAnyPartitionChooser) (choiceVec : List Int) : Except TFactoryFault Int :=
  match choiceVec[chooser.count.toNat % choiceVec.length]? with
  | some partition => pure partition
  | none => .error .divisionByZero

/-- `GetChoice`: the cached choice, made first if there is none. -/
def getChoice (chooser : TAnyPartitionChooser) (choiceVec : List Int) :
    Except TFactoryFault (Int × TAnyPartitionChooser) :=
  match chooser.choice with
  | some partition => pure (partition, chooser)
  | none => do
      let partition ← chooser.choose choiceVec
      pure (partition, { chooser with choice := some partition })

/-- `SetChoiceUsed`. -/
def setChoiceUsed (chooser : TAnyPartitionChooser) : TAnyPartitionChooser :=
  { chooser with choiceUsed := true }

/-- `ClearChoice`: forget the choice, and move on if it was used. -/
def clearChoice (chooser : TAnyPartitionChooser) : TAnyPartitionChooser :=
  if chooser.choiceUsed then { count := chooser.count + 1, choice := none, choiceUsed := false }
  else { chooser with choice := none }

/-- A cached choice, if there is one, is the entry of the chooser's count. -/
def ChoiceCurrent (choiceVec : List Int) (chooser : TAnyPartitionChooser) : Prop :=
  ∀ partition, chooser.choice = some partition →
    choiceVec[chooser.count.toNat % choiceVec.length]? = some partition

theorem choose_eq {chooser : TAnyPartitionChooser} {choiceVec : List Int} {partition : Int}
    (chosen : chooser.choose choiceVec = .ok partition) :
    choiceVec[chooser.count.toNat % choiceVec.length]? = some partition := by
  unfold choose at chosen
  split at chosen
  · cases chosen
    assumption
  · cases chosen

/-- `GetChoice` leaves the count and the used flag, and caches what it returns. -/
theorem getChoice_frame {chooser chooser' : TAnyPartitionChooser} {choiceVec : List Int} {partition : Int}
    (got : chooser.getChoice choiceVec = .ok (partition, chooser')) :
    chooser'.count = chooser.count ∧ chooser'.choiceUsed = chooser.choiceUsed ∧
      chooser'.choice = some partition := by
  unfold getChoice at got
  split at got
  · cases got
    exact ⟨rfl, rfl, by assumption⟩
  · obtain ⟨chosen, -, done⟩ := bind_eq_ok got
    cases done
    exact ⟨rfl, rfl, rfl⟩

/-- From a current chooser, `GetChoice` returns the entry of the count. -/
theorem getChoice_of_current {chooser chooser' : TAnyPartitionChooser} {choiceVec : List Int}
    {partition : Int} (current : ChoiceCurrent choiceVec chooser)
    (got : chooser.getChoice choiceVec = .ok (partition, chooser')) :
    choiceVec[chooser.count.toNat % choiceVec.length]? = some partition := by
  unfold getChoice at got
  split at got
  · cases got
    exact current _ (by assumption)
  · obtain ⟨chosen, made, done⟩ := bind_eq_ok got
    cases done
    exact choose_eq made

theorem getChoice_current {chooser chooser' : TAnyPartitionChooser} {choiceVec : List Int}
    {partition : Int} (current : ChoiceCurrent choiceVec chooser)
    (got : chooser.getChoice choiceVec = .ok (partition, chooser')) : ChoiceCurrent choiceVec chooser' := by
  obtain ⟨count, -, cached⟩ := getChoice_frame got
  intro cachedPartition found
  rw [cached] at found
  cases found
  rw [count]
  exact getChoice_of_current current got

/-- With a partition to choose from, `GetChoice` does not fault. -/
theorem getChoice_progress (chooser : TAnyPartitionChooser) {choiceVec : List Int} (nonempty : choiceVec ≠ []) :
    ∃ partition chooser', chooser.getChoice choiceVec = .ok (partition, chooser') := by
  unfold getChoice
  split
  · exact ⟨_, _, rfl⟩
  · have inRange : chooser.count.toNat % choiceVec.length < choiceVec.length :=
      Nat.mod_lt _ (List.length_pos_of_ne_nil nonempty)
    refine ⟨choiceVec[chooser.count.toNat % choiceVec.length],
      { chooser with choice := some choiceVec[chooser.count.toNat % choiceVec.length] }, ?_⟩
    rw [choose, List.getElem?_eq_getElem inRange]
    rfl

@[simp] theorem setChoiceUsed_count (chooser : TAnyPartitionChooser) :
    chooser.setChoiceUsed.count = chooser.count := rfl

@[simp] theorem setChoiceUsed_choice (chooser : TAnyPartitionChooser) :
    chooser.setChoiceUsed.choice = chooser.choice := rfl

@[simp] theorem setChoiceUsed_choiceUsed (chooser : TAnyPartitionChooser) :
    chooser.setChoiceUsed.choiceUsed = true := rfl

@[simp] theorem clearChoice_choice (chooser : TAnyPartitionChooser) : chooser.clearChoice.choice = none := by
  unfold clearChoice
  split <;> rfl

@[simp] theorem clearChoice_choiceUsed (chooser : TAnyPartitionChooser) :
    chooser.clearChoice.choiceUsed = false := by
  unfold clearChoice
  split <;> simp_all

theorem clearChoice_count (chooser : TAnyPartitionChooser) :
    chooser.clearChoice.count = if chooser.choiceUsed then chooser.count + 1 else chooser.count := by
  unfold clearChoice
  split <;> rfl

/-- Clearing twice is clearing once: the second finds the choice unused. -/
theorem clearChoice_clearChoice (chooser : TAnyPartitionChooser) :
    chooser.clearChoice.clearChoice = chooser.clearChoice := by
  have unused := clearChoice_choiceUsed chooser
  have cleared := clearChoice_choice chooser
  generalize chooser.clearChoice = once at unused cleared ⊢
  cases once
  simp_all [clearChoice]

end TAnyPartitionChooser

/-- `TTopicData`: whether the topic's `CompressionInfo` has a compression
codec, and its chooser. -/
structure TTopicData where
  compressionCodec : Bool
  anyPartitionChooser : TAnyPartitionChooser := {}
deriving DecidableEq, Repr

/-! ### Request contents (common.h) -/

/-- `TMsgSet`. -/
structure TMsgSet where
  dataSize : Nat := 0
  contents : List TPartitionedMsg := []
deriving DecidableEq, Repr

/-- `msg_set.Contents.push_back(msg)`, and for a topic with a compression
codec `msg_set.DataSize = dataSize`. -/
def TMsgSet.add (msgSet : TMsgSet) (compressionCodec : Bool) (dataSize : Nat) (msg : TPartitionedMsg) :
    TMsgSet :=
  { dataSize := if compressionCodec then dataSize else msgSet.dataSize, contents := msgSet.contents ++ [msg] }

/-- `TAllTopics` as the factory builds it: topics to partitions to message
sets, both levels `std::map`s. -/
abbrev TRequestContents := OrderedMap String (OrderedMap Int TMsgSet)

namespace TRequestContents

/-- The message set `result[topic][partition]` refers to, empty when absent. -/
def msgSetAt (result : TRequestContents) (topic : String) (partition : Int) : TMsgSet :=
  (result.find topic OrderedMap.empty).find partition {}

/-- `result[topic][partition]`, then `change` of the set it refers to. -/
def update (result : TRequestContents) (topic : String) (partition : Int) (change : TMsgSet → TMsgSet) :
    TRequestContents :=
  result.alter topic OrderedMap.empty fun group => group.alter partition {} change

/-- The messages of the result, in iteration order. -/
def msgs (result : TRequestContents) : List TPartitionedMsg :=
  result.entries.flatMap fun topic => topic.2.entries.flatMap fun msgSet => msgSet.2.contents

/-- `msgSet` is stored under `topic` and `partition`. -/
def MsgSetIn (result : TRequestContents) (topic : String) (partition : Int) (msgSet : TMsgSet) : Prop :=
  ∃ group, (topic, group) ∈ result.entries ∧ (partition, msgSet) ∈ group.entries

/-- What `msgSetAt` reads is stored, or the empty set. -/
theorem msgSetAt_cases (result : TRequestContents) (topic : String) (partition : Int) :
    result.MsgSetIn topic partition (result.msgSetAt topic partition) ∨ result.msgSetAt topic partition = {} := by
  unfold msgSetAt
  rcases OrderedMap.find_mem result topic OrderedMap.empty with stored | absent
  · rcases OrderedMap.find_mem (result.find topic OrderedMap.empty) partition {} with inGroup | default
    · exact .inl ⟨_, stored, inGroup⟩
    · exact .inr default
  · rw [absent]
    exact .inr (OrderedMap.find_empty partition ({} : TMsgSet))

theorem msgSetAt_update (result : TRequestContents) (topic : String) (partition : Int)
    (change : TMsgSet → TMsgSet) (other : String) (otherPartition : Int) :
    (result.update topic partition change).msgSetAt other otherPartition =
      if other = topic ∧ otherPartition = partition then change (result.msgSetAt topic partition)
      else result.msgSetAt other otherPartition := by
  unfold msgSetAt update
  rw [OrderedMap.find_alter]
  by_cases sameTopic : other = topic
  · subst sameTopic
    rw [if_pos rfl, OrderedMap.find_alter]
    by_cases samePartition : otherPartition = partition <;> simp [samePartition]
  · simp [sameTopic]

/-- Every set stored after `update` was stored before, or is the changed one. -/
theorem msgSetIn_update {result : TRequestContents} {topic : String} {partition : Int}
    {change : TMsgSet → TMsgSet} {other : String} {otherPartition : Int} {msgSet : TMsgSet}
    (stored : (result.update topic partition change).MsgSetIn other otherPartition msgSet) :
    result.MsgSetIn other otherPartition msgSet ∨
      (other = topic ∧ otherPartition = partition ∧ msgSet = change (result.msgSetAt topic partition)) := by
  obtain ⟨group, groupIn, setIn⟩ := stored
  rcases OrderedMap.mem_alter groupIn with old | altered
  · exact .inl ⟨group, old, setIn⟩
  · -- the group under `topic` is the altered one
    obtain ⟨rfl, rfl⟩ := Prod.mk.inj altered
    rcases OrderedMap.mem_alter setIn with oldSet | alteredSet
    · rcases OrderedMap.find_mem result other OrderedMap.empty with found | absent
      · exact .inl ⟨_, found, oldSet⟩
      · rw [absent] at oldSet
        exact absurd oldSet List.not_mem_nil
    · obtain ⟨rfl, rfl⟩ := Prod.mk.inj alteredSet
      exact .inr ⟨rfl, rfl, rfl⟩

/-- Every group stored after `update` was stored before, or is the altered one. -/
theorem groups_update {result : TRequestContents} {topic : String} {partition : Int}
    {change : TMsgSet → TMsgSet} {entry : String × OrderedMap Int TMsgSet}
    (stored : entry ∈ (result.update topic partition change).entries) : entry ∈ result.entries ∨ entry.2.entries ≠ [] := by
  rcases OrderedMap.mem_alter stored with old | rfl
  · exact .inl old
  · exact .inr (OrderedMap.alterEntries_ne_nil _ _ _ _)

theorem update_update (result : TRequestContents) (topic : String) (partition : Int)
    (first second : TMsgSet → TMsgSet) :
    (result.update topic partition first).update topic partition second =
      result.update topic partition (second ∘ first) := by
  unfold update
  rw [OrderedMap.alter_alter]
  congr 1
  funext group
  exact OrderedMap.alter_alter group partition {} first second

/-- `result[topic][partition]` alone changes nothing when the set is there. -/
theorem update_id {result : TRequestContents} {topic : String} {partition : Int}
    (nonempty : (result.msgSetAt topic partition).contents ≠ []) : result.update topic partition id = result := by
  rcases msgSetAt_cases result topic partition with ⟨group, groupIn, setIn⟩ | absent
  · exact OrderedMap.alter_of_fixed groupIn _ (OrderedMap.alter_of_fixed setIn _ rfl)
  · rw [absent] at nonempty
    exact absurd rfl nonempty

theorem mem_msgs {result : TRequestContents} {msg : TPartitionedMsg} :
    msg ∈ result.msgs ↔ ∃ topic partition msgSet, result.MsgSetIn topic partition msgSet ∧ msg ∈ msgSet.contents := by
  simp only [msgs, List.mem_flatMap, MsgSetIn]
  constructor
  · rintro ⟨⟨topic, group⟩, groupIn, ⟨partition, msgSet⟩, setIn, member⟩
    exact ⟨topic, partition, msgSet, ⟨group, groupIn, setIn⟩, member⟩
  · rintro ⟨topic, partition, msgSet, ⟨group, groupIn, setIn⟩, member⟩
    exact ⟨(topic, group), groupIn, (partition, msgSet), setIn, member⟩

/-- A change that adds `extra` to one set adds it to the messages of the result. -/
theorem msgs_update_perm (result : TRequestContents) (topic : String) (partition : Int)
    {change : TMsgSet → TMsgSet} {extra : List TPartitionedMsg}
    (grows : ∀ msgSet, (change msgSet).contents.Perm (msgSet.contents ++ extra)) :
    (result.update topic partition change).msgs.Perm (result.msgs ++ extra) := by
  unfold msgs update
  -- inside the group, then across the groups
  have inner : ∀ group : OrderedMap Int TMsgSet,
      ((group.alter partition {} change).entries.flatMap fun msgSet => msgSet.2.contents).Perm
        ((group.entries.flatMap fun msgSet => msgSet.2.contents) ++ extra) :=
    fun group => OrderedMap.flatMap_alter_perm TMsgSet.contents group partition grows rfl
  refine OrderedMap.flatMap_alter_perm (fun group : OrderedMap Int TMsgSet =>
    group.entries.flatMap fun msgSet => msgSet.2.contents) result topic inner ?_
  rfl

@[simp] theorem msgs_empty : TRequestContents.msgs OrderedMap.empty = [] := rfl

end TRequestContents

/-! ### The factory -/

/-- The members of `TProduceRequestFactory` that stay the same while
requests are built: the two limits of `TGlobalBatchConfig`, the protocol's
`SingleMsgOverhead`, and what `FindPartitionChoices(topic, BrokerIndex, ...)`
returns from the factory's metadata. -/
structure TFactoryConf where
  produceRequestDataLimit : Nat
  messageMaxBytes : Nat
  singleMsgOverhead : Nat
  partitionChoices : String → List Int

/-- The members that building a request changes: `InputQueue`, and
`TopicDataMap` with `GetTopicData`'s insertion of a topic's default data
folded in (a topic not yet in the map reads as that default). -/
structure TProduceRequestFactory where
  inputQueue : List (List TPartitionedMsg)
  topicDataMap : String → TTopicData

/-- A new factory, or one after `Init`: an empty queue, and for each topic its
compression setting and a new chooser. -/
def TProduceRequestFactory.create (compressionCodec : String → Bool) : TProduceRequestFactory :=
  { inputQueue := [], topicDataMap := fun topic => { compressionCodec := compressionCodec topic } }

section Factory

variable (conf : TFactoryConf)

/-- What `AddFirstMsg` and `TryConsumeFrontMsg` begin with: an AnyPartition
message gets `GetChoice()` as its partition (`SetPartition`); a
PartitionKey message keeps the partition the router gave it. -/
def choosePartition (topic : String) (topicData : TTopicData) (msg : TPartitionedMsg) :
    Except TFactoryFault (TPartitionedMsg × TTopicData) :=
  match msg.msg.routingType with
  | .anyPartition => do
      let (partition, chooser) ← topicData.anyPartitionChooser.getChoice (conf.partitionChoices topic)
      pure ({ msg with partition }, { topicData with anyPartitionChooser := chooser })
  | .partitionKey => pure (msg, topicData)

/-- `choosePartition` keeps the message, the compression setting, the count
and the used flag; a PartitionKey message changes nothing. -/
theorem choosePartition_frame {topic : String} {topicData topicData' : TTopicData}
    {msg msg' : TPartitionedMsg} (chosen : choosePartition conf topic topicData msg = .ok (msg', topicData')) :
    msg'.msg = msg.msg ∧ topicData'.compressionCodec = topicData.compressionCodec ∧
      topicData'.anyPartitionChooser.count = topicData.anyPartitionChooser.count ∧
      topicData'.anyPartitionChooser.choiceUsed = topicData.anyPartitionChooser.choiceUsed ∧
      (msg.msg.routingType = .partitionKey → msg' = msg ∧ topicData' = topicData) := by
  unfold choosePartition at chosen
  split at chosen
  · obtain ⟨⟨partition, chooser⟩, got, done⟩ := bind_eq_ok chosen
    cases done
    obtain ⟨count, used, -⟩ := TAnyPartitionChooser.getChoice_frame got
    refine ⟨rfl, rfl, count, used, fun keyed => ?_⟩
    simp_all
  · cases chosen
    exact ⟨rfl, rfl, rfl, rfl, fun _ => ⟨rfl, rfl⟩⟩

/-- From a current chooser, an AnyPartition message gets the entry of the
count, and the chooser stays current. -/
theorem choosePartition_current {topic : String} {topicData topicData' : TTopicData}
    {msg msg' : TPartitionedMsg}
    (current : TAnyPartitionChooser.ChoiceCurrent (conf.partitionChoices topic) topicData.anyPartitionChooser)
    (chosen : choosePartition conf topic topicData msg = .ok (msg', topicData')) :
    TAnyPartitionChooser.ChoiceCurrent (conf.partitionChoices topic) topicData'.anyPartitionChooser ∧
      (msg.msg.routingType = .anyPartition →
        (conf.partitionChoices topic)[topicData.anyPartitionChooser.count.toNat %
          (conf.partitionChoices topic).length]? = some msg'.partition) := by
  unfold choosePartition at chosen
  split at chosen
  · obtain ⟨⟨partition, chooser⟩, got, done⟩ := bind_eq_ok chosen
    cases done
    exact ⟨TAnyPartitionChooser.getChoice_current current got,
      fun _ => TAnyPartitionChooser.getChoice_of_current current got⟩
  · cases chosen
    refine ⟨current, fun any => ?_⟩
    simp_all

/-- With a partition to choose from, `choosePartition` does not fault. -/
theorem choosePartition_progress (topic : String) (topicData : TTopicData) (msg : TPartitionedMsg)
    (choices : msg.msg.routingType = .anyPartition → conf.partitionChoices topic ≠ []) :
    ∃ msg' topicData', choosePartition conf topic topicData msg = .ok (msg', topicData') := by
  unfold choosePartition
  split
  · rename_i any
    obtain ⟨partition, chooser, got⟩ :=
      topicData.anyPartitionChooser.getChoice_progress (choices any)
    exact ⟨_, _, by rw [got]; rfl⟩
  · exact ⟨_, _, rfl⟩

/-- `SetChoiceUsed()` once an AnyPartition message is in the result. -/
def useChoice (msg : TPartitionedMsg) (topicData : TTopicData) : TTopicData :=
  match msg.msg.routingType with
  | .anyPartition => { topicData with anyPartitionChooser := topicData.anyPartitionChooser.setChoiceUsed }
  | .partitionKey => topicData

@[simp] theorem useChoice_compressionCodec (msg : TPartitionedMsg) (topicData : TTopicData) :
    (useChoice msg topicData).compressionCodec = topicData.compressionCodec := by
  unfold useChoice
  split <;> rfl

@[simp] theorem useChoice_count (msg : TPartitionedMsg) (topicData : TTopicData) :
    (useChoice msg topicData).anyPartitionChooser.count = topicData.anyPartitionChooser.count := by
  unfold useChoice
  split <;> rfl

@[simp] theorem useChoice_choice (msg : TPartitionedMsg) (topicData : TTopicData) :
    (useChoice msg topicData).anyPartitionChooser.choice = topicData.anyPartitionChooser.choice := by
  unfold useChoice
  split <;> rfl

theorem useChoice_choiceUsed (msg : TPartitionedMsg) (topicData : TTopicData) :
    (useChoice msg topicData).anyPartitionChooser.choiceUsed =
      (topicData.anyPartitionChooser.choiceUsed || msg.msg.routingType == .anyPartition) := by
  unfold useChoice
  split <;> simp_all

/-- `AddFirstMsg(result)`: take the first message of the queue into the
result, whatever its size; returns its size. -/
def addFirstMsg (factory : TProduceRequestFactory) (result : TRequestContents) :
    Except TFactoryFault (Nat × TProduceRequestFactory × TRequestContents) :=
  match factory.inputQueue with
  | [] => .error .assertionFailure
  | [] :: _ => .error .assertionFailure
  | (msg :: rest) :: batches => do
      let topic := msg.msg.topic
      let (msg, topicData) ← choosePartition conf topic (factory.topicDataMap topic) msg
      let topicData := useChoice msg topicData
      let dataSize := msg.msg.keyAndValueSize
      -- `assert(msg_set.DataSize == 0)` for a topic with a compression codec
      if topicData.compressionCodec ∧ (result.msgSetAt topic msg.partition).dataSize ≠ 0 then
        .error .assertionFailure
      else
        pure (dataSize,
          { inputQueue := if rest = [] then batches else rest :: batches,
            topicDataMap := Function.update factory.topicDataMap topic topicData },
          result.update topic msg.partition fun msgSet =>
            msgSet.add topicData.compressionCodec (dataSize + conf.singleMsgOverhead) msg)

/-- What `AddFirstMsg` does on the empty result: the front message, given its
partition, makes the result alone. -/
theorem addFirstMsg_cases {factory factory' : TProduceRequestFactory} {dataSize : Nat}
    {result : TRequestContents} (added : addFirstMsg conf factory OrderedMap.empty = .ok (dataSize, factory', result)) :
    ∃ msg rest batches msg' topicData, factory.inputQueue = (msg :: rest) :: batches ∧
      choosePartition conf msg.msg.topic (factory.topicDataMap msg.msg.topic) msg = .ok (msg', topicData) ∧
      dataSize = msg'.msg.keyAndValueSize ∧
      factory'.inputQueue = (if rest = [] then batches else rest :: batches) ∧
      factory'.topicDataMap = Function.update factory.topicDataMap msg.msg.topic (useChoice msg' topicData) ∧
      result = TRequestContents.update OrderedMap.empty msg.msg.topic msg'.partition fun msgSet =>
        msgSet.add topicData.compressionCodec (msg'.msg.keyAndValueSize + conf.singleMsgOverhead) msg' := by
  unfold addFirstMsg at added
  split at added
  · cases added
  · cases added
  · rename_i msg rest batches queue
    obtain ⟨⟨msg', topicData⟩, chosen, added⟩ := bind_eq_ok added
    -- the empty result has no set, so its `DataSize` is 0
    simp only [TRequestContents.msgSetAt, OrderedMap.find_empty, useChoice_compressionCodec] at added
    rw [if_neg (by simp)] at added
    cases added
    exact ⟨msg, rest, batches, msg', topicData, queue, chosen, rfl, rfl, rfl, rfl⟩

/-- With a partition to choose for its first message, `AddFirstMsg` does not
fault on a queue whose first batch has a message. -/
theorem addFirstMsg_progress {factory : TProduceRequestFactory} {msg : TPartitionedMsg}
    {rest : List TPartitionedMsg} {batches : List (List TPartitionedMsg)}
    (queue : factory.inputQueue = (msg :: rest) :: batches)
    (choices : msg.msg.routingType = .anyPartition → conf.partitionChoices msg.msg.topic ≠ []) :
    ∃ outcome, addFirstMsg conf factory OrderedMap.empty = .ok outcome := by
  obtain ⟨msg', topicData, chosen⟩ :=
    choosePartition_progress conf msg.msg.topic (factory.topicDataMap msg.msg.topic) msg choices
  unfold addFirstMsg
  rw [queue]
  simp only [chosen, ok_bind, TRequestContents.msgSetAt, OrderedMap.find_empty]
  exact ⟨_, by simp; rfl⟩

/-- What the loop of `BuildRequestContents` carries from one message to the
next: the data of the batch's topic (`topic_data`, a reference into
`TopicDataMap`), `result_data_size` and `result`. -/
structure TBuildState where
  topicData : TTopicData
  resultDataSize : Nat
  result : TRequestContents

/-- `TryConsumeFrontMsg`: take the front message `msg` of the batch into the
result if it fits.  Returns whether it did, the message with the partition
it was given, and the state. -/
def tryConsumeFrontMsg (topic : String) (state : TBuildState) (msg : TPartitionedMsg) :
    Except TFactoryFault (Bool × TPartitionedMsg × TBuildState) := do
  let (msg, topicData) ← choosePartition conf topic state.topicData msg
  let dataSize := msg.msg.keyAndValueSize
  let newResultDataSize := state.resultDataSize + dataSize
  if newResultDataSize > conf.produceRequestDataLimit then
    pure (false, msg, { state with topicData })
  else
    -- `result[topic][msg_ptr->GetPartition()]` creates the set before the size test
    let result := state.result.update topic msg.partition id
    let msgSet := result.msgSetAt topic msg.partition
    let newDataSize := msgSet.dataSize + dataSize + conf.singleMsgOverhead
    if topicData.compressionCodec ∧ newDataSize > conf.messageMaxBytes then
      -- `assert(!msg_set.Contents.empty())` and `assert(msg_set.DataSize)`
      if msgSet.contents = [] ∨ msgSet.dataSize = 0 then .error .assertionFailure
      else pure (false, msg, { state with topicData, result })
    else
      pure (true, msg,
        { topicData := useChoice msg topicData, resultDataSize := newResultDataSize,
          result := result.update topic msg.partition fun msgSet =>
            msgSet.add topicData.compressionCodec newDataSize msg })

/-- What `TryConsumeFrontMsg` can do: refuse the message, changing only the
topic data by the partition choice, or take it within both limits into its
message set. -/
theorem tryConsumeFrontMsg_cases {topic : String} {state state' : TBuildState} {msg msg' : TPartitionedMsg}
    {consumed : Bool} (tried : tryConsumeFrontMsg conf topic state msg = .ok (consumed, msg', state')) :
    ∃ topicData, choosePartition conf topic state.topicData msg = .ok (msg', topicData) ∧
      ((consumed = false ∧ state' = { state with topicData }) ∨
        (consumed = true ∧
          state.resultDataSize + msg'.msg.keyAndValueSize ≤ conf.produceRequestDataLimit ∧
          (topicData.compressionCodec = true →
            (state.result.msgSetAt topic msg'.partition).dataSize + msg'.msg.keyAndValueSize +
              conf.singleMsgOverhead ≤ conf.messageMaxBytes) ∧
          state' =
            { topicData := useChoice msg' topicData,
              resultDataSize := state.resultDataSize + msg'.msg.keyAndValueSize,
              result := state.result.update topic msg'.partition fun msgSet =>
                msgSet.add topicData.compressionCodec
                  ((state.result.msgSetAt topic msg'.partition).dataSize + msg'.msg.keyAndValueSize +
                    conf.singleMsgOverhead) msg' })) := by
  unfold tryConsumeFrontMsg at tried
  obtain ⟨⟨chosenMsg, topicData⟩, chosen, tried⟩ := bind_eq_ok tried
  -- the set is read after `result[topic][partition]` created it
  simp only [TRequestContents.msgSetAt_update, and_self, if_true, id] at tried
  split at tried
  · -- over the request's data limit
    cases tried
    exact ⟨topicData, chosen, .inl ⟨rfl, rfl⟩⟩
  · split at tried
    · -- over `MessageMaxBytes`: the asserts hold, so the set was there already
      split at tried
      · cases tried
      · cases tried
        rename_i asserted
        have nonempty : (state.result.msgSetAt topic msg'.partition).contents ≠ [] :=
          fun empty => asserted (.inl empty)
        refine ⟨topicData, chosen, .inl ⟨rfl, ?_⟩⟩
        rw [TRequestContents.update_id nonempty]
    · cases tried
      rename_i withinLimit withinMax
      refine ⟨topicData, chosen, .inr ⟨rfl, by omega, fun compressed => by simp_all, ?_⟩⟩
      rw [TRequestContents.update_update]
      rfl

/-- The inner loop of `BuildRequestContents` over the batch `next_batch` of
`topic`: take front messages until one does not fit (`result_full`) or the
batch is used up.  Returns `result_full`, what is left of the batch (the
message that did not fit first, with the partition it was given) and the
state. -/
def consumeBatch (topic : String) :
    List TPartitionedMsg → TBuildState → Except TFactoryFault (Bool × List TPartitionedMsg × TBuildState)
  | [], state => pure (false, [], state)
  | msg :: rest, state =>
      -- a message of another topic calls `MultipleTopicBugFixup`, which begins with `assert(false)`
      if msg.msg.topic ≠ topic then .error .assertionFailure
      else do
        let (consumed, msg, state) ← tryConsumeFrontMsg conf topic state msg
        if consumed then consumeBatch topic rest state
        else pure (true, msg :: rest, state)

/-- The outer loop of `BuildRequestContents` over `InputQueue`: a used-up
batch leaves the queue, and the loop ends at the first message that does not
fit or when the queue is empty.  Returns the queue, the topic data, the data
size and the result. -/
def consumeQueue :
    List (List TPartitionedMsg) → (String → TTopicData) → Nat → TRequestContents →
      Except TFactoryFault (List (List TPartitionedMsg) × (String → TTopicData) × Nat × TRequestContents)
  | [], topicDataMap, resultDataSize, result => pure ([], topicDataMap, resultDataSize, result)
  -- `assert(!next_batch.empty())`
  | [] :: _, _, _, _ => .error .assertionFailure
  | (msg :: rest) :: batches, topicDataMap, resultDataSize, result => do
      let topic := msg.msg.topic
      let (full, left, state) ←
        consumeBatch conf topic (msg :: rest) ⟨topicDataMap topic, resultDataSize, result⟩
      let topicDataMap := Function.update topicDataMap topic state.topicData
      if full then pure (left :: batches, topicDataMap, state.resultDataSize, state.result)
      else consumeQueue batches topicDataMap state.resultDataSize state.result

end Factory

/-- `ClearChoice()` on the chooser of each of `topics`. -/
def clearChoices (topics : List String) (topicDataMap : String → TTopicData) : String → TTopicData :=
  topics.foldl (fun map topic => Function.update map topic
    { map topic with anyPartitionChooser := (map topic).anyPartitionChooser.clearChoice }) topicDataMap

/-- After `clearChoices`, the chooser of each topic of the list is cleared
and every other is as it was. -/
theorem clearChoices_apply (topics : List String) (topicDataMap : String → TTopicData) (topic : String) :
    clearChoices topics topicDataMap topic =
      if topic ∈ topics then
        { topicDataMap topic with
          anyPartitionChooser := (topicDataMap topic).anyPartitionChooser.clearChoice }
      else topicDataMap topic := by
  induction topics generalizing topicDataMap with
  | nil => simp [clearChoices]
  | cons first others inductionHypothesis =>
      simp only [clearChoices, List.foldl_cons] at inductionHypothesis ⊢
      rw [inductionHypothesis]
      by_cases same : topic = first
      · -- a repeated topic is cleared again, which changes nothing
        subst same
        by_cases again : topic ∈ others <;>
          simp [again, Function.update_self, TAnyPartitionChooser.clearChoice_clearChoice]
      · simp [same]

/-- `SanityCheckRequestContents`: every message set and every topic group of
the result is nonempty, or an `assert(false)` fires. -/
def sanityCheckRequestContents (contents : TRequestContents) : Except TFactoryFault Unit :=
  if contents.entries.all fun topic =>
      !topic.2.entries.isEmpty && topic.2.entries.all fun msgSet => !msgSet.2.contents.isEmpty then
    pure ()
  else .error .assertionFailure

/-- The check passes when every group and every set is nonempty. -/
theorem sanityCheckRequestContents_ok {contents : TRequestContents}
    (groups : ∀ entry ∈ contents.entries, entry.2.entries ≠ [])
    (sets : ∀ topic partition msgSet, contents.MsgSetIn topic partition msgSet → msgSet.contents ≠ []) :
    sanityCheckRequestContents contents = .ok () := by
  unfold sanityCheckRequestContents
  rw [if_pos]
  · rfl
  simp only [List.all_eq_true, Bool.and_eq_true, Bool.not_eq_eq_eq_not, Bool.not_true,
    List.isEmpty_eq_false_iff]
  intro entry member
  refine ⟨groups entry member, fun setEntry setMember => ?_⟩
  exact sets entry.1 setEntry.1 setEntry.2 ⟨entry.2, member, setMember⟩

/-- `BuildRequestContents()`: the contents of the next request, and the
factory after it.  Its own `assert(!InputQueue.empty())` is the first one
of `AddFirstMsg`. -/
def buildRequestContents (conf : TFactoryConf) (factory : TProduceRequestFactory) :
    Except TFactoryFault (TRequestContents × TProduceRequestFactory) := do
  let (resultDataSize, factory, result) ← addFirstMsg conf factory (OrderedMap.empty : TRequestContents)
  let (inputQueue, topicDataMap, _, result) ←
    -- a message by itself may exceed the data limit; then nothing more is added
    if resultDataSize < conf.produceRequestDataLimit then
      consumeQueue conf factory.inputQueue factory.topicDataMap resultDataSize result
    else pure (factory.inputQueue, factory.topicDataMap, resultDataSize, result)
  let topicDataMap := clearChoices (KeyedList.keys result.entries) topicDataMap
  sanityCheckRequestContents result
  pure (result, { inputQueue, topicDataMap })

end Dory.MsgDispatch
