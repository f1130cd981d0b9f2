/-
Module: Dory.MsgDispatch.RequestRuns
Purpose: Successive requests of one `TProduceRequestFactory` under fixed
  metadata.  Between requests the queue may change in any way (`Put`,
  `PutFront`, `GetAll`); the topic data only change when a request is built.
  A chooser is quiet between requests: its choice unused and, if cached,
  the entry of its count.  Each request gives every AnyPartition message of
  a topic the entry of the topic's count, and moves the count on by one
  exactly when the request holds such a message; so over a run the
  messages of the `k`-th such request get entry `k mod 2^64 mod n` of the
  topic's choices.
Trusted boundary: none
Main exports: Quiet, hasAnyPartitionMsg, buildRequestContents_choices,
  Reachable, reachable_quiet, anyPartition_round_robin
-/
import Dory.MsgDispatch.RequestContents

namespace Dory.MsgDispatch

open Dory.Foundation TAnyPartitionChooser

/-- A chooser between requests: its choice unused and, if cached, current. -/
structure Quiet (choiceVec : List Int) (chooser : TAnyPartitionChooser) : Prop where
  unused : chooser.choiceUsed = false
  current : ChoiceCurrent choiceVec chooser

/-- Whether a request holds an AnyPartition message of `topic`. -/
def hasAnyPartitionMsg (topic : String) (result : TRequestContents) : Bool :=
  result.msgs.any (isAnyPartitionOf topic)

theorem Quiet.clearChoice (choiceVec : List Int) (chooser : TAnyPartitionChooser) :
    Quiet choiceVec chooser.clearChoice :=
  ⟨clearChoice_choiceUsed chooser, fun partition cached => by simp at cached⟩

section Request

variable {conf : TFactoryConf}

/-- A message of the result is of a topic the result holds. -/
theorem ResultHolds.mem_keys {compressionCodec : String → Bool} {placed : List TPartitionedMsg}
    {resultDataSize : Nat} {result : TRequestContents}
    (holds : ResultHolds conf compressionCodec placed resultDataSize result) {msg : TPartitionedMsg}
    (member : msg ∈ result.msgs) : msg.msg.topic ∈ KeyedList.keys result.entries := by
  obtain ⟨topic, partition, msgSet, setIn, inSet⟩ := TRequestContents.mem_msgs.mp member
  have keyed := ((holds.sets topic partition msgSet setIn).keyed msg inSet).1
  obtain ⟨group, groupIn, -⟩ := setIn
  rw [keyed]
  exact KeyedList.mem_keys_of_mem groupIn

/-- One request, from a quiet chooser of `topic`: every AnyPartition message
of the topic gets the entry of the count, the chooser is quiet again, and
its count moved on by one exactly when the request holds such a message. -/
theorem buildRequestContents_choices {factory factory' : TProduceRequestFactory} {result : TRequestContents}
    (built : buildRequestContents conf factory = .ok (result, factory')) {topic : String}
    (quiet : Quiet (conf.partitionChoices topic) (factory.topicDataMap topic).anyPartitionChooser) :
    (∀ msg ∈ result.msgs, msg.msg.topic = topic → msg.msg.routingType = .anyPartition →
      (conf.partitionChoices topic)[(factory.topicDataMap topic).anyPartitionChooser.count.toNat %
        (conf.partitionChoices topic).length]? = some msg.partition) ∧
    Quiet (conf.partitionChoices topic) (factory'.topicDataMap topic).anyPartitionChooser ∧
    (factory'.topicDataMap topic).anyPartitionChooser.count =
      if hasAnyPartitionMsg topic result then (factory.topicDataMap topic).anyPartitionChooser.count + 1
      else (factory.topicDataMap topic).anyPartitionChooser.count := by
  obtain ⟨placed, topicDataMap, resultDataSize, -, -, holds, -, cleared⟩ := buildRequestContents_cases built
  have topicHolds := holds.topicData topic
  -- the chooser was used in the request exactly when it placed such a message
  have used : (topicDataMap topic).anyPartitionChooser.choiceUsed = hasAnyPartitionMsg topic result := by
    rw [topicHolds.used, quiet.unused, Bool.false_or, hasAnyPartitionMsg, holds.result.msgs.any_eq]
  refine ⟨fun msg member own any => ?_, ?_⟩
  · have got := holds.chosen msg (holds.result.msgs.subset member) any (own ▸ quiet.current)
    rwa [own] at got
  rw [cleared, clearChoices_apply]
  split
  · -- a topic of the result: its chooser is cleared
    refine ⟨Quiet.clearChoice _ _, ?_⟩
    rw [clearChoice_count, used, topicHolds.count]
  · -- any message of the topic would have put it in the result
    rename_i absent
    have none : hasAnyPartitionMsg topic result = false := by
      rw [hasAnyPartitionMsg, List.any_eq_false]
      intro msg member
      have present := holds.result.mem_keys member
      simp only [isAnyPartitionOf, Bool.and_eq_true, beq_iff_eq, not_and]
      intro own
      exact absurd (own ▸ present) absent
    refine ⟨⟨by rw [used, none], topicHolds.current quiet.current⟩, ?_⟩
    rw [none, topicHolds.count]
    rfl

end Request

/-- The factory states of a run under fixed metadata, with the contents of
the requests built so far: a new factory, any change of the queue, and a
built request. -/
inductive Reachable (conf : TFactoryConf) : TProduceRequestFactory → List TRequestContents → Prop
  | create (compressionCodec : String → Bool) :
      Reachable conf (TProduceRequestFactory.create compressionCodec) []
  | put {factory : TProduceRequestFactory} {requests : List TRequestContents}
      (inputQueue : List (List TPartitionedMsg)) :
      Reachable conf factory requests → Reachable conf { factory with inputQueue } requests
  | build {factory factory' : TProduceRequestFactory} {requests : List TRequestContents}
      {result : TRequestContents} :
      Reachable conf factory requests → buildRequestContents conf factory = .ok (result, factory') →
      Reachable conf factory' (requests ++ [result])

section Run

variable {conf : TFactoryConf}

/-- Between requests every chooser is quiet, and its count is the number of
requests so far that held an AnyPartition message of its topic. -/
theorem reachable_quiet {factory : TProduceRequestFactory} {requests : List TRequestContents}
    (reachable : Reachable conf factory requests) (topic : String) :
    Quiet (conf.partitionChoices topic) (factory.topicDataMap topic).anyPartitionChooser ∧
      (factory.topicDataMap topic).anyPartitionChooser.count =
        UInt64.ofNat (requests.countP (hasAnyPartitionMsg topic)) := by
  induction reachable with
  | create compressionCodec => exact ⟨⟨rfl, fun _ cached => by cases cached⟩, rfl⟩
  | put inputQueue _ inductionHypothesis => exact inductionHypothesis
  | build _ built inductionHypothesis =>
      obtain ⟨quiet, counted⟩ := inductionHypothesis
      obtain ⟨-, quiet', count'⟩ := buildRequestContents_choices built quiet
      refine ⟨quiet', ?_⟩
      rw [count', counted, List.countP_append]
      split <;> simp_all [UInt64.ofNat_add]

/-- Across a run, every AnyPartition message of a topic in the `i`-th request
gets entry `k mod 2^64 mod n` of the topic's `n` choices, where `k` counts
the earlier requests that held such a message; and the chooser's count is
the number of all such requests. -/
theorem anyPartition_round_robin {factory : TProduceRequestFactory} {requests : List TRequestContents}
    (reachable : Reachable conf factory requests) (topic : String) :
    (factory.topicDataMap topic).anyPartitionChooser.count =
        UInt64.ofNat (requests.countP (hasAnyPartitionMsg topic)) ∧
      ∀ i request, requests[i]? = some request →
        ∀ msg ∈ request.msgs, msg.msg.topic = topic → msg.msg.routingType = .anyPartition →
          (conf.partitionChoices topic)[(requests.take i).countP (hasAnyPartitionMsg topic) % 2 ^ 64 %
            (conf.partitionChoices topic).length]? = some msg.partition := by
  refine ⟨(reachable_quiet reachable topic).2, ?_⟩
  induction reachable with
  | create compressionCodec => exact fun i request found => by simp at found
  | put inputQueue _ inductionHypothesis => exact inductionHypothesis
  | @build factory factory' requests result earlier built inductionHypothesis =>
      intro i request found
      rcases Nat.lt_or_ge i requests.length with before | last
      · -- an earlier request: the run before it is unchanged
        rw [List.getElem?_append_left before] at found
        rw [List.take_append_of_le_length before.le]
        exact inductionHypothesis i request found
      · -- the new request: its messages got the entry of the count before it
        obtain ⟨quiet, counted⟩ := reachable_quiet earlier topic
        have index : i = requests.length := by
          have bound := (List.getElem?_eq_some_iff.mp found).1
          simp only [List.length_append, List.length_singleton] at bound
          omega
        subst index
        rw [List.getElem?_append_right le_rfl, Nat.sub_self] at found
        cases found
        rw [List.take_left' rfl, ← UInt64.toNat_ofNat', ← counted]
        exact (buildRequestContents_choices built quiet).1

/-- A run that creates a factory with topic `b` compressed, queues
`fittingQueue` and builds one request. -/
theorem anyPartition_round_robin_of_fittingQueue :
    ∃ factory requests, Reachable smallSetConf factory requests ∧ requests.length = 1 ∧
      (factory.topicDataMap "a").anyPartitionChooser.count =
        UInt64.ofNat (requests.countP (hasAnyPartitionMsg "a")) := by
  have queued : Reachable smallSetConf
      { TProduceRequestFactory.create (fun topic => topic == "b") with inputQueue := fittingQueue } [] :=
    .put fittingQueue (.create _)
  obtain ⟨result, factory', built⟩ : ∃ result factory',
      buildRequestContents smallSetConf
          { TProduceRequestFactory.create (fun topic => topic == "b") with inputQueue := fittingQueue } =
        .ok (result, factory') := ⟨_, _, rfl⟩
  have reachable := Reachable.build queued built
  exact ⟨_, _, reachable, rfl, (anyPartition_round_robin reachable "a").1⟩

end Run

end Dory.MsgDispatch
