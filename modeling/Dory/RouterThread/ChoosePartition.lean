/-
Module: Dory.RouterThread.ChoosePartition
Purpose: `TRouterThread::ChoosePartitionByKey`: the partition a
  PartitionKey message goes to.  The loop scans `AllPartitions` from the
  key's index, wrapping around, and returns the first partition whose leader
  broker is in service (`choosePartitionByKey_eq_find?`).  On metadata that
  passes `SanityCheck()`, a topic with an ok partition always gets one
  (`Die()` is unreachable).  The test is on the broker, not on the
  partition: an out-of-service partition led by a broker that leads some ok
  partition is chosen like an ok one.  Release builds define `NDEBUG`, so the
  asserts of `ChoosePartitionByKey` are not checked.
Trusted boundary: none
Main exports: leaderInService, choosePartitionByKey,
  choosePartitionByKey_eq_find?, choosePartitionByKey_isSome
-/
import Dory.Foundation.CyclicScan
import Dory.Metadata.Sanity

namespace Dory.TMetadata

open Dory.Foundation

/-- `broker_vec[broker_index].IsInService()` for a partition's leader.  An
index out of range, which the source asserts against, reads as out of
service. -/
def leaderInService (brokers : List TBroker) (partition : TPartition) : Bool :=
  brokers[partition.brokerIndex]?.any TBroker.inService

/-- `ChoosePartitionByKey`: the do-while loop over `AllPartitions` from
`(uint32_t)partition_key % size`, once around; none where the source calls
`Die()`. -/
def choosePartitionByKey (metadata : TMetadata) (topic : TTopic) (partitionKey : Int32) : Option TPartition :=
  cyclicScan (leaderInService metadata.brokers) topic.allPartitions
    (partitionKey.toUInt32.toNat % topic.allPartitions.length) topic.allPartitions.length

/-- The loop picks the first partition, from the key's index on and
wrapping around, whose leader is in service. -/
theorem choosePartitionByKey_eq_find? (metadata : TMetadata) (topic : TTopic) (partitionKey : Int32) :
    metadata.choosePartitionByKey topic partitionKey =
      (topic.allPartitions.rotate partitionKey.toUInt32.toNat).find? (leaderInService metadata.brokers) :=
  cyclicScan_eq_find? _

section Sane

variable {metadata : TMetadata} {topic : TTopic}

/-- The leader of an ok partition is in service. -/
theorem Sane.leaderInService_of_ok (sane : Sane metadata) (member : topic ∈ metadata.topics) {p : TPartition}
    (ok : p ∈ topic.okPartitions) : leaderInService metadata.brokers p = true := by
  have within := (sane.sound.topicSane topic member).brokerIndex_lt p (List.mem_append_left _ ok)
  have inService := (sane.sound.inService p.brokerIndex within).mpr ⟨topic, member, p, ok, rfl⟩
  simp [leaderInService, List.getElem?_eq_getElem within, inService]

/-- A topic with an ok partition always gets a partition: `Die()` is
unreachable. -/
theorem choosePartitionByKey_isSome (sane : Sane metadata) (member : topic ∈ metadata.topics)
    (hasOk : topic.okPartitions ≠ []) (partitionKey : Int32) :
    (metadata.choosePartitionByKey topic partitionKey).isSome = true := by
  obtain ⟨p, ok⟩ := List.exists_mem_of_ne_nil _ hasOk
  have inAll : p ∈ topic.allPartitions :=
    (sane.sound.topicSane topic member).allPartitions_perm.mem_iff.mpr (List.mem_append_left _ ok)
  rw [choosePartitionByKey_eq_find?, List.find?_isSome]
  exact ⟨p, (List.rotate_perm _ _).mem_iff.mpr inAll, sane.leaderInService_of_ok member ok⟩

/-- Two brokers, and a topic whose partition 1 is out of service and led by
the broker that leads no ok partition; key 1 starts the scan there, and the
scan wraps around to partition 0. -/
theorem choosePartitionByKey_isSome_wrapping :
    let metadata := TMetadata.ofCalls ⟨fun _ => 0, 0⟩ [⟨1, "a", 9092⟩, ⟨2, "b", 9092⟩]
      [⟨"t", [⟨0, 1, true, 0⟩, ⟨1, 2, false, 0⟩]⟩]
    metadata.topics.getD 0 {} ∈ metadata.topics ∧ (metadata.topics.getD 0 {}).okPartitions ≠ [] ∧
      (metadata.choosePartitionByKey (metadata.topics.getD 0 {}) 1).isSome = true := by
  intro metadata
  have member : metadata.topics.getD 0 {} ∈ metadata.topics := by decide
  have hasOk : (metadata.topics.getD 0 {}).okPartitions ≠ [] := by decide
  exact ⟨member, hasOk, choosePartitionByKey_isSome (ofCalls_sane _ _ _) member hasOk 1⟩

/-- The scan starts at the key's index, and takes the partition there when
its leader is in service, also when the partition itself is out of service:
the choice is then not an ok partition. -/
theorem choosePartitionByKey_chooses_outOfService (sane : Sane metadata) (member : topic ∈ metadata.topics)
    (partitionKey : Int32) {p : TPartition}
    (atKey : topic.allPartitions[partitionKey.toUInt32.toNat % topic.allPartitions.length]? = some p)
    (outOfService : p ∈ topic.outOfServicePartitions) (leader : leaderInService metadata.brokers p = true) :
    metadata.choosePartitionByKey topic partitionKey = some p ∧ p ∉ topic.okPartitions := by
  obtain ⟨within, rfl⟩ := List.getElem?_eq_some_iff.mp atKey
  obtain ⟨rest, rotated, -⟩ := rotate_eq_cons within
  constructor
  · rw [choosePartitionByKey_eq_find?, ← List.rotate_mod, rotated, List.find?_cons, leader]
  · -- no partition ID is both ok and out of service
    intro ok
    have ids := (sane.sound.topicSane topic member).ids_nodup
    rw [List.map_append, List.nodup_append] at ids
    exact ids.2.2 _ (List.mem_map_of_mem ok) _ (List.mem_map_of_mem outOfService) rfl

end Sane

/-- One broker, and a topic with partition 0 ok and partition 1 out of
service, both led by it; key 1 starts the scan at partition 1. -/
theorem choosePartitionByKey_chooses_outOfService_at_key_one :
    let metadata := TMetadata.ofCalls ⟨fun _ => 0, 0⟩ [⟨1, "a", 9092⟩]
      [⟨"t", [⟨0, 1, true, 0⟩, ⟨1, 1, false, 0⟩]⟩]
    metadata.topics.getD 0 {} ∈ metadata.topics ∧
      (metadata.topics.getD 0 {}).allPartitions[(1 : Int32).toUInt32.toNat %
        (metadata.topics.getD 0 {}).allPartitions.length]? = some ⟨1, 0, 0⟩ ∧
      (⟨1, 0, 0⟩ : TPartition) ∈ (metadata.topics.getD 0 {}).outOfServicePartitions ∧
      leaderInService metadata.brokers ⟨1, 0, 0⟩ = true ∧
      metadata.choosePartitionByKey (metadata.topics.getD 0 {}) 1 = some ⟨1, 0, 0⟩ ∧
      (⟨1, 0, 0⟩ : TPartition) ∉ (metadata.topics.getD 0 {}).okPartitions := by
  intro metadata
  have member : metadata.topics.getD 0 {} ∈ metadata.topics := by decide
  have atKey : (metadata.topics.getD 0 {}).allPartitions[(1 : Int32).toUInt32.toNat %
      (metadata.topics.getD 0 {}).allPartitions.length]? = some ⟨1, 0, 0⟩ := by decide
  have outOfService : (⟨1, 0, 0⟩ : TPartition) ∈ (metadata.topics.getD 0 {}).outOfServicePartitions := by decide
  have leader : leaderInService metadata.brokers ⟨1, 0, 0⟩ = true := by decide
  exact ⟨member, atKey, outOfService, leader,
    choosePartitionByKey_chooses_outOfService (ofCalls_sane _ _ _) member 1 atKey outOfService leader⟩

end Dory.TMetadata
