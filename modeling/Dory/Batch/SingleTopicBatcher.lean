/-
Module: Dory.Batch.SingleTopicBatcher
Purpose: `TSingleTopicBatcher` (src/dory/batch/single_topic_batcher.{h,cc}):
  a message list beside a `TBatcherCore`.  `doAddMsg` follows the `switch` of
  `DoAddMsg` on the core's action, with the `std::list` moves written out:
  a list moved from is left empty, and a message that is not moved stays with
  the caller.  Over every run of `AddMsg` and `TakeBatch` calls from an empty
  batcher with batching enabled, the batcher loses, duplicates and reorders
  no message, its counters describe the held list, every returned batch is
  within the limits, and after each `AddMsg` the held batch is strictly below
  them.  Release builds define `NDEBUG`, so its asserts are not checked.
Trusted boundary: none
Main exports: TSingleTopicBatcher, doAddMsg, addMsg, takeBatch, Op, step,
  Consistent, step_consistent, step_conserves, singleTopicBatcher_run_law
-/
import Dory.Batch.BatcherCore
import Dory.Foundation.Trace

namespace Dory.Batch

open Dory.Foundation
open TBatcherCore

/-- `TSingleTopicBatcher`. -/
structure TSingleTopicBatcher where
  coreState : TBatcherCore
  msgList : List TMsg := []
deriving DecidableEq, Repr

namespace TSingleTopicBatcher

/-- `TSingleTopicBatcher(config)`. -/
def init (config : TBatchConfig) : TSingleTopicBatcher :=
  { coreState := { config := config } }

/-- `IsEmpty()`. -/
def isEmpty (batcher : TSingleTopicBatcher) : Bool :=
  batcher.coreState.isEmpty

/-- `BatchingIsEnabled()`. -/
def batchingIsEnabled (batcher : TSingleTopicBatcher) : Bool :=
  Dory.Batch.batchingIsEnabled batcher.coreState.config

/-- `GetNextCompleteTime()`. -/
def getNextCompleteTime (batcher : TSingleTopicBatcher) : Option TTimestamp :=
  batcher.coreState.getNextCompleteTime

/-- `DoAddMsg(msg, now)`: the returned list, the message if it is still with
the caller, and the new batcher. -/
def doAddMsg (batcher : TSingleTopicBatcher) (msg : TMsg) (now : TTimestamp) :
    (List TMsg × Option TMsg) × TSingleTopicBatcher :=
  if !batcher.batchingIsEnabled then (([], some msg), batcher)
  else
    match batcher.coreState.processNewMsg now msg with
    | (.leaveMsgAndReturnBatch, core) => ((batcher.msgList, some msg), ⟨core, []⟩)
    | (.returnBatchAndTakeMsg, core) => ((batcher.msgList, none), ⟨core, [msg]⟩)
    | (.takeMsgAndReturnBatch, core) => ((batcher.msgList ++ [msg], none), ⟨core, []⟩)
    | (.takeMsgAndLeaveBatch, core) => (([], none), ⟨core, batcher.msgList ++ [msg]⟩)

/-- `AddMsg(msg, now)`; its assertion that the list length matches the core's
count is the invariant `Consistent` below. -/
def addMsg (batcher : TSingleTopicBatcher) (msg : TMsg) (now : TTimestamp) :
    (List TMsg × Option TMsg) × TSingleTopicBatcher :=
  batcher.doAddMsg msg now

/-- `TakeBatch()`: empty out the batcher and return what it held. -/
def takeBatch (batcher : TSingleTopicBatcher) : List TMsg × TSingleTopicBatcher :=
  (batcher.msgList, { coreState := batcher.coreState.clearState })

@[simp] theorem takeBatch_fst (batcher : TSingleTopicBatcher) :
    batcher.takeBatch.1 = batcher.msgList := rfl

@[simp] theorem takeBatch_msgList (batcher : TSingleTopicBatcher) :
    batcher.takeBatch.2.msgList = [] := rfl

@[simp] theorem takeBatch_coreState (batcher : TSingleTopicBatcher) :
    batcher.takeBatch.2.coreState = batcher.coreState.clearState := rfl

@[simp] theorem init_msgList (config : TBatchConfig) : (init config).msgList = [] := rfl

@[simp] theorem init_getNextCompleteTime (config : TBatchConfig) :
    (init config).getNextCompleteTime = none := rfl

@[simp] theorem takeBatch_getNextCompleteTime (batcher : TSingleTopicBatcher) :
    batcher.takeBatch.2.getNextCompleteTime = none := rfl

/-- With batching enabled, `doAddMsg` is the core's action read as a list
operation: `returnedBatch`, `leftMsg` and `heldAfter`. -/
theorem doAddMsg_of_enabled {batcher : TSingleTopicBatcher} {msg : TMsg} {now : TTimestamp}
    (enabled : batcher.batchingIsEnabled = true) :
    batcher.doAddMsg msg now =
      ((returnedBatch (batcher.coreState.processNewMsg now msg).1 batcher.msgList msg,
          leftMsg (batcher.coreState.processNewMsg now msg).1 msg),
        ⟨(batcher.coreState.processNewMsg now msg).2,
          heldAfter (batcher.coreState.processNewMsg now msg).1 batcher.msgList msg⟩) := by
  rw [doAddMsg, if_neg (by simp [enabled])]
  rcases batcher.coreState.processNewMsg now msg with ⟨action, core⟩
  cases action <;> rfl

/-!
### Runs of `AddMsg` and `TakeBatch`
-/

/-- One call on the batcher. -/
inductive Op where
  | addMsg (msg : TMsg) (now : TTimestamp)
  | takeBatch
deriving DecidableEq, Repr

/-- One call: the returned list, the message left with the caller (only for
`AddMsg`), and the new batcher. -/
def step (batcher : TSingleTopicBatcher) : Op → (List TMsg × Option TMsg) × TSingleTopicBatcher
  | .addMsg msg now => batcher.addMsg msg now
  | .takeBatch => ((batcher.takeBatch.1, none), batcher.takeBatch.2)

/-- What a call hands back, in order: the returned list, then the message it
left with the caller. -/
def emitted (entry : Entry TSingleTopicBatcher Op (List TMsg × Option TMsg)) : List TMsg :=
  entry.output.1 ++ entry.output.2.toList

/-- What a call gives the batcher. -/
def received : Op → List TMsg
  | .addMsg msg _ => [msg]
  | .takeBatch => []

/-- The invariant of a batcher built with `config`: the configuration is
unchanged, the counters describe the held list, and the held batch is below
the count and byte limits. -/
structure Consistent (config : TBatchConfig) (batcher : TSingleTopicBatcher) : Prop where
  config : batcher.coreState.config = config
  describes : batcher.coreState.Describes batcher.msgList
  below : batcher.coreState.BelowLimits

theorem Consistent.batchingIsEnabled_eq {config : TBatchConfig} {batcher : TSingleTopicBatcher}
    (consistent : Consistent config batcher) :
    batcher.batchingIsEnabled = Dory.Batch.batchingIsEnabled config := by
  rw [batchingIsEnabled, consistent.config]

/-- A batch with a next complete time holds at least one message. -/
theorem Consistent.msgList_ne_nil {config : TBatchConfig} {batcher : TSingleTopicBatcher}
    {expiry : TTimestamp} (consistent : Consistent config batcher)
    (scheduled : batcher.getNextCompleteTime = some expiry) : batcher.msgList ≠ [] := by
  obtain ⟨counted, -, -⟩ := getNextCompleteTime_eq_some.mp scheduled
  rw [consistent.describes.msgCount] at counted
  exact List.ne_nil_of_length_pos (Nat.pos_of_ne_zero counted)

theorem init_consistent (config : TBatchConfig) : Consistent config (init config) :=
  ⟨rfl, clearState_describes { config := config }, clearState_belowLimits { config := config }⟩

theorem takeBatch_consistent {config : TBatchConfig} {batcher : TSingleTopicBatcher}
    (consistent : Consistent config batcher) : Consistent config batcher.takeBatch.2 :=
  ⟨by simpa using consistent.config, clearState_describes _, clearState_belowLimits _⟩

section Enabled

variable {config : TBatchConfig} (enabled : Dory.Batch.batchingIsEnabled config = true)
include enabled

theorem addMsg_consistent {batcher : TSingleTopicBatcher} (consistent : Consistent config batcher)
    (msg : TMsg) (now : TTimestamp) : Consistent config (batcher.addMsg msg now).2 := by
  have coreEnabled : Dory.Batch.batchingIsEnabled batcher.coreState.config = true := by
    rw [consistent.config]
    exact enabled
  rw [addMsg, doAddMsg_of_enabled coreEnabled]
  have processed : batcher.coreState.processNewMsg now msg =
      ((batcher.coreState.processNewMsg now msg).1,
        (batcher.coreState.processNewMsg now msg).2) := rfl
  exact ⟨(processNewMsg_config coreEnabled processed).trans consistent.config,
    processNewMsg_describes coreEnabled processed consistent.describes,
    processNewMsg_belowLimits coreEnabled processed⟩

/-- An `AddMsg` hands back, leaves with the caller, and then holds exactly
the old batch followed by the new message. -/
theorem addMsg_conserves {batcher : TSingleTopicBatcher} (consistent : Consistent config batcher)
    (msg : TMsg) (now : TTimestamp) :
    (batcher.addMsg msg now).1.1 ++ (batcher.addMsg msg now).1.2.toList ++
        (batcher.addMsg msg now).2.msgList =
      batcher.msgList ++ [msg] := by
  have coreEnabled : Dory.Batch.batchingIsEnabled batcher.coreState.config = true := by
    rw [consistent.config]
    exact enabled
  rw [addMsg, doAddMsg_of_enabled coreEnabled]
  exact returnedBatch_append_leftMsg_heldAfter _ batcher.msgList msg

/-- After an `AddMsg`, the next complete time of the held batch, when it has
one, is after `now`. -/
theorem addMsg_nextCompleteTime_after {batcher : TSingleTopicBatcher}
    (consistent : Consistent config batcher) {msg : TMsg} {now expiry : TTimestamp}
    (scheduled : (batcher.addMsg msg now).2.getNextCompleteTime = some expiry) : now < expiry := by
  have coreEnabled : Dory.Batch.batchingIsEnabled batcher.coreState.config = true := by
    rw [consistent.config]
    exact enabled
  rw [addMsg, doAddMsg_of_enabled coreEnabled] at scheduled
  exact processNewMsg_nextCompleteTime_after coreEnabled rfl scheduled

theorem step_consistent (batcher : TSingleTopicBatcher) (op : Op)
    (consistent : Consistent config batcher) : Consistent config (step batcher op).2 := by
  cases op with
  | addMsg msg now => exact addMsg_consistent enabled consistent msg now
  | takeBatch => exact takeBatch_consistent consistent

/-- One call hands back, and then holds, exactly the old batch followed by
what the call received. -/
theorem step_conserves (batcher : TSingleTopicBatcher) (op : Op)
    (consistent : Consistent config batcher) :
    emitted ⟨batcher, op, (step batcher op).1, (step batcher op).2⟩ ++
        (step batcher op).2.msgList =
      batcher.msgList ++ received op := by
  cases op with
  | addMsg msg now => exact addMsg_conserves enabled consistent msg now
  | takeBatch => simp [emitted, step, received]

/-- Every list a call returns is within the enabled limits. -/
theorem step_within (batcher : TSingleTopicBatcher) (op : Op)
    (consistent : Consistent config batcher) : WithinLimits config (step batcher op).1.1 := by
  have heldWithin : WithinLimits config batcher.msgList := by
    rw [← consistent.config]
    exact consistent.describes.withinLimits consistent.below
  cases op with
  | addMsg msg now =>
      have coreEnabled : Dory.Batch.batchingIsEnabled batcher.coreState.config = true := by
        rw [consistent.config]
        exact enabled
      simp only [step, addMsg, doAddMsg_of_enabled coreEnabled]
      rw [← consistent.config]
      exact processNewMsg_returned_within coreEnabled rfl consistent.describes consistent.below
  | takeBatch => exact heldWithin

/-- After an `AddMsg`, the held batch is strictly below every enabled
limit: the count and byte limits, and `now` is before its expiry. -/
theorem addMsg_below (batcher : TSingleTopicBatcher) (msg : TMsg) (now : TTimestamp)
    (consistent : Consistent config batcher) :
    (batcher.addMsg msg now).2.coreState.BelowLimits ∧
      (batcher.addMsg msg now).2.coreState.BeforeExpiry now := by
  have coreEnabled : Dory.Batch.batchingIsEnabled batcher.coreState.config = true := by
    rw [consistent.config]
    exact enabled
  rw [addMsg, doAddMsg_of_enabled coreEnabled]
  exact ⟨processNewMsg_belowLimits coreEnabled rfl, processNewMsg_beforeExpiry coreEnabled rfl⟩

end Enabled

/-- The single-topic batching law over every run from an empty batcher with
batching enabled: (a) the returned lists, each followed by the message its
call left with the caller, and then the held list, are the input messages in
order; (b) the core's counters describe the held list; (c) every returned
list is within the enabled count and byte limits; (d) after each `AddMsg`
the held batch is strictly below the count and byte limits and `now` is
before its expiry. -/
theorem singleTopicBatcher_run_law (config : TBatchConfig)
    (enabled : Dory.Batch.batchingIsEnabled config = true) (ops : List Op) :
    (trace step (init config) ops).flatMap emitted ++ (final step (init config) ops).msgList =
        ops.flatMap received ∧
      (final step (init config) ops).coreState.Describes
        (final step (init config) ops).msgList ∧
      (∀ entry ∈ trace step (init config) ops, WithinLimits config entry.output.1) ∧
      (∀ entry ∈ trace step (init config) ops, ∀ msg now, entry.input = .addMsg msg now →
        entry.after.coreState.BelowLimits ∧ entry.after.coreState.BeforeExpiry now) := by
  have preserved := step_consistent enabled
  refine ⟨?_, ?_, ?_, ?_⟩
  · simpa [init] using trace_outputs_append preserved (step_conserves enabled) (init config) ops
      (init_consistent config)
  · exact (final_invariant preserved (init config) ops (init_consistent config)).describes
  · exact trace_forall (P := fun entry => WithinLimits config entry.output.1) preserved
      (step_within enabled) (init config) ops (init_consistent config)
  · refine trace_forall (P := fun entry => ∀ msg now, entry.input = .addMsg msg now →
        entry.after.coreState.BelowLimits ∧ entry.after.coreState.BeforeExpiry now)
      preserved ?_ (init config) ops (init_consistent config)
    intro batcher op consistent msg now isAdd
    subst isAdd
    exact addMsg_below enabled batcher msg now consistent

/-- The run law with a count limit of two, over one `AddMsg` and one
`TakeBatch`. -/
theorem singleTopicBatcher_run_law_count_two :
    Dory.Batch.batchingIsEnabled ⟨0, 2, 0⟩ = true ∧
      (trace step (init ⟨0, 2, 0⟩)
            [.addMsg ⟨.anyPartition, 0, "t", 3, 0⟩ 0, .takeBatch]).flatMap emitted ++
          (final step (init ⟨0, 2, 0⟩)
            [.addMsg ⟨.anyPartition, 0, "t", 3, 0⟩ 0, .takeBatch]).msgList =
        [Op.addMsg ⟨.anyPartition, 0, "t", 3, 0⟩ 0, .takeBatch].flatMap received ∧
      (final step (init ⟨0, 2, 0⟩)
          [.addMsg ⟨.anyPartition, 0, "t", 3, 0⟩ 0, .takeBatch]).coreState.Describes
        (final step (init ⟨0, 2, 0⟩)
          [.addMsg ⟨.anyPartition, 0, "t", 3, 0⟩ 0, .takeBatch]).msgList ∧
      (∀ entry ∈ trace step (init ⟨0, 2, 0⟩)
          [.addMsg ⟨.anyPartition, 0, "t", 3, 0⟩ 0, .takeBatch],
        WithinLimits ⟨0, 2, 0⟩ entry.output.1) ∧
      (∀ entry ∈ trace step (init ⟨0, 2, 0⟩)
          [.addMsg ⟨.anyPartition, 0, "t", 3, 0⟩ 0, .takeBatch], ∀ msg now,
        entry.input = .addMsg msg now →
          entry.after.coreState.BelowLimits ∧ entry.after.coreState.BeforeExpiry now) :=
  ⟨by decide, singleTopicBatcher_run_law ⟨0, 2, 0⟩ (by decide) _⟩

end TSingleTopicBatcher

end Dory.Batch
