/-
Module: Dory.Msg
Purpose: The message record (`TMsg`, src/dory/msg.h) as far as batching,
  routing and dispatch read it: its routing type, the client's timestamp,
  its topic, the size of its key and value, and its failed delivery attempt
  counter.  Messages are owned through `std::unique_ptr`, so a message is in
  exactly one place at a time; the model states this as conservation of the
  multiset (or the list) of message values, which is why no identity field is
  needed.  Release builds define `NDEBUG`, so the asserts of msg.h are not
  checked.
Trusted boundary: none
Main exports: TRoutingType, TMsg, TMsg.bodySize, TMsg.countFailedDeliveryAttempt,
  TMsg.uncounted, byteCountOf, minTimestampOf, SingleTopic, ofTopic
-/
import Mathlib

namespace Dory

/-- `TMsg::TRoutingType`. -/
inductive TRoutingType where
  | anyPartition
  | partitionKey
deriving DecidableEq, Repr, Inhabited

/-- `TMsg::TTimestamp`: milliseconds since the epoch, as `int64_t`. -/
abbrev TTimestamp := Int64

/-- The fields of `TMsg` that the modelled code reads.  `keyAndValueSize` is
`GetKeyAndValue().Size()`. -/
structure TMsg where
  routingType : TRoutingType
  timestamp : TTimestamp
  topic : String
  keyAndValueSize : Nat
  failedDeliveryAttemptCount : Nat := 0
deriving DecidableEq, Repr

namespace TMsg

/-- The size a message is charged in a batch: an empty message counts as one
byte, so that a byte limit alone cannot batch unboundedly many empty
messages (`TBatcherCore::ProcessNewMsg`). -/
def bodySize (msg : TMsg) : Nat :=
  max 1 msg.keyAndValueSize

/-- `CountFailedDeliveryAttempt()`: the message with its counter incremented;
the source also returns the new count. -/
def countFailedDeliveryAttempt (msg : TMsg) : TMsg :=
  { msg with failedDeliveryAttemptCount := msg.failedDeliveryAttemptCount + 1 }

/-- The message with its failed delivery attempt counter cleared: what stays
the same of a message while a connector counts its failed attempts. -/
def uncounted (msg : TMsg) : TMsg :=
  { msg with failedDeliveryAttemptCount := 0 }

@[simp] theorem uncounted_countFailedDeliveryAttempt (msg : TMsg) :
    msg.countFailedDeliveryAttempt.uncounted = msg.uncounted := rfl

end TMsg

/-- Total charged size of a list of messages. -/
def byteCountOf (msgs : List TMsg) : Nat :=
  (msgs.map TMsg.bodySize).sum

/-- Smallest timestamp of a list of messages, `INT64_MAX` for the empty list,
accumulated in arrival order as `TBatcherCore::UpdateState` does. -/
def minTimestampOf (msgs : List TMsg) : TTimestamp :=
  msgs.foldl (fun least msg => min least msg.timestamp) Int64.maxValue

@[simp] theorem byteCountOf_nil : byteCountOf [] = 0 := rfl

@[simp] theorem byteCountOf_append (first second : List TMsg) :
    byteCountOf (first ++ second) = byteCountOf first + byteCountOf second := by
  simp [byteCountOf]

@[simp] theorem byteCountOf_singleton (msg : TMsg) :
    byteCountOf [msg] = msg.bodySize := by
  simp [byteCountOf]

/-- The charged size does not depend on the order of the messages. -/
theorem byteCountOf_perm {first second : List TMsg} (perm : first.Perm second) :
    byteCountOf first = byteCountOf second :=
  (perm.map TMsg.bodySize).sum_nat

@[simp] theorem minTimestampOf_nil : minTimestampOf [] = Int64.maxValue := rfl

@[simp] theorem minTimestampOf_append_singleton (msgs : List TMsg) (msg : TMsg) :
    minTimestampOf (msgs ++ [msg]) = min (minTimestampOf msgs) msg.timestamp := by
  simp [minTimestampOf]

/-- All messages of a list have the given topic. -/
def SingleTopic (topic : String) (msgs : List TMsg) : Prop :=
  ∀ msg ∈ msgs, msg.topic = topic

/-- The messages of one topic, in order. -/
def ofTopic (topic : String) (msgs : List TMsg) : List TMsg :=
  msgs.filter fun msg => msg.topic == topic

@[simp] theorem ofTopic_nil (topic : String) : ofTopic topic [] = [] := rfl

@[simp] theorem ofTopic_append (topic : String) (first second : List TMsg) :
    ofTopic topic (first ++ second) = ofTopic topic first ++ ofTopic topic second :=
  List.filter_append _ _

theorem ofTopic_singleton (topic : String) (msg : TMsg) :
    ofTopic topic [msg] = if msg.topic = topic then [msg] else [] := by
  by_cases same : msg.topic = topic <;> simp [ofTopic, same]

theorem SingleTopic.ofTopic_self {topic : String} {msgs : List TMsg} (single : SingleTopic topic msgs) :
    ofTopic topic msgs = msgs :=
  List.filter_eq_self.mpr fun msg member => by simp [single msg member]

theorem SingleTopic.ofTopic_other {topic other : String} {msgs : List TMsg}
    (single : SingleTopic topic msgs) (different : topic ≠ other) : ofTopic other msgs = [] :=
  List.filter_eq_nil_iff.mpr fun msg member => by simp [single msg member, different]

end Dory
