/-
Module: Dory.Batch.BatcherCore
Purpose: The batch limits (`TBatchConfig`, src/dory/batch/batch_config.h)
  and the counter state shared by every batcher (`TBatcherCore`,
  src/dory/batch/batcher_core.{h,cc}).  `processNewMsg` decides, for one new
  message, whether the held batch is returned and whether the message joins
  it.  Its three limits differ in strictness: the count and time tests fire at
  `>=`, the byte test that returns the held batch before the message fires at
  `>`, and a message whose own size reaches the byte limit is never taken.
  `processNewMsg_cases` states once everything one call can do; the counter
  and limit laws used by the batchers are derived from it.  Release builds
  define `NDEBUG`, so its assert is not checked.
Trusted boundary: none
Main exports: TBatchConfig, TBatcherCore, TAction, processNewMsg,
  processNewMsg_cases, Describes, BelowLimits, WithinLimits,
  processNewMsg_describes, processNewMsg_belowLimits
-/
import Dory.Msg
import Mathlib

namespace Dory.Batch

/-- `TBatchConfig`: a zero limit is disabled.  The fields are `size_t`. -/
structure TBatchConfig where
  timeLimit : Nat := 0
  msgCount : Nat := 0
  byteCount : Nat := 0
deriving DecidableEq, Repr

/-- `BatchingIsEnabled(config)`. -/
def batchingIsEnabled (config : TBatchConfig) : Bool :=
  config.timeLimit != 0 || config.msgCount != 0 || config.byteCount != 0

/-- `TimeLimitIsEnabled(config)`. -/
def timeLimitIsEnabled (config : TBatchConfig) : Bool :=
  config.timeLimit != 0

/-- `MsgCountLimitIsEnabled(config)`. -/
def msgCountLimitIsEnabled (config : TBatchConfig) : Bool :=
  config.msgCount != 0

/-- `ByteCountLimitIsEnabled(config)`. -/
def byteCountLimitIsEnabled (config : TBatchConfig) : Bool :=
  config.byteCount != 0

/-- `static_cast<TTimestamp>(timestamp + TimeLimit)`: the `int64_t` timestamp
is converted to `uint64_t`, the `size_t` limit added modulo `2^64`, and the sum
converted back, which is `Int64.ofInt` of the exact sum. -/
def timeLimitExpiry (timestamp : TTimestamp) (timeLimit : Nat) : TTimestamp :=
  Int64.ofInt (timestamp.toInt + timeLimit)

/-- `TBatcherCore::TAction`. -/
inductive TAction where
  | leaveMsgAndReturnBatch
  | returnBatchAndTakeMsg
  | takeMsgAndReturnBatch
  | takeMsgAndLeaveBatch
deriving DecidableEq, Repr

/-- `TBatcherCore`: the limits and the counters of the held batch. -/
structure TBatcherCore where
  config : TBatchConfig
  minTimestamp : TTimestamp := Int64.maxValue
  msgCount : Nat := 0
  byteCount : Nat := 0
deriving DecidableEq, Repr

namespace TBatcherCore

/-- `IsEmpty()`. -/
def isEmpty (core : TBatcherCore) : Bool :=
  core.msgCount == 0

/-- `GetNextCompleteTime()`. -/
def getNextCompleteTime (core : TBatcherCore) : Option TTimestamp :=
  if core.isEmpty || !timeLimitIsEnabled core.config then none
  else some (timeLimitExpiry core.minTimestamp core.config.timeLimit)

/-- `ClearState()`. -/
def clearState (core : TBatcherCore) : TBatcherCore :=
  { config := core.config }

/-- `UpdateState(timestamp, body_size)`. -/
def updateState (core : TBatcherCore) (timestamp : TTimestamp)
    (bodySize : Nat) : TBatcherCore :=
  { core with
    minTimestamp := min core.minTimestamp timestamp
    msgCount := core.msgCount + 1
    byteCount := core.byteCount + bodySize }

/-- `TestTimeLimit(now, new_msg_timestamp)`; the default timestamp
`INT64_MAX` leaves `MinTimestamp` unchanged by the `std::min`. -/
def testTimeLimit (core : TBatcherCore) (now : TTimestamp)
    (newMsgTimestamp : TTimestamp := Int64.maxValue) : Bool :=
  timeLimitIsEnabled core.config &&
    decide (timeLimitExpiry (min core.minTimestamp newMsgTimestamp)
      core.config.timeLimit ≤ now)

/-- `TestMsgCount(adding_msg)`. -/
def testMsgCount (core : TBatcherCore) (addingMsg : Bool := false) : Bool :=
  msgCountLimitIsEnabled core.config &&
    decide (core.config.msgCount ≤ core.msgCount + (if addingMsg then 1 else 0))

/-- `TestByteCount(bytes_to_add)`: the limit is reached. -/
def testByteCount (core : TBatcherCore) (bytesToAdd : Nat := 0) : Bool :=
  byteCountLimitIsEnabled core.config &&
    decide (core.config.byteCount ≤ core.byteCount + bytesToAdd)

/-- `TestByteCountExceeded(bytes_to_add)`: the limit is passed. -/
def testByteCountExceeded (core : TBatcherCore) (bytesToAdd : Nat) : Bool :=
  byteCountLimitIsEnabled core.config &&
    decide (core.config.byteCount < core.byteCount + bytesToAdd)

/-- `TestAllLimits(now)`. -/
def testAllLimits (core : TBatcherCore) (now : TTimestamp) : Bool :=
  core.testTimeLimit now || core.testMsgCount || core.testByteCount

/-- `ProcessNewMsg(now, msg)`: the action for the caller and the new state. -/
def processNewMsg (core : TBatcherCore) (now : TTimestamp) (msg : TMsg) :
    TAction × TBatcherCore :=
  if !batchingIsEnabled core.config then (.leaveMsgAndReturnBatch, core)
  else
    let timestamp := msg.timestamp
    let bodySize := msg.bodySize
    if byteCountLimitIsEnabled core.config && decide (core.config.byteCount ≤ bodySize) then
      (.leaveMsgAndReturnBatch, core.clearState)
    else if core.testByteCountExceeded bodySize then
      -- the held batch goes back first; the message then starts a new batch
      -- unless it alone already reaches the count or the time limit
      if core.clearState.testMsgCount true || core.clearState.testTimeLimit now timestamp then
        (.leaveMsgAndReturnBatch, core.clearState)
      else (.returnBatchAndTakeMsg, core.clearState.updateState timestamp bodySize)
    else
      if (core.updateState timestamp bodySize).testAllLimits now then
        (.takeMsgAndReturnBatch, (core.updateState timestamp bodySize).clearState)
      else (.takeMsgAndLeaveBatch, core.updateState timestamp bodySize)

theorem getNextCompleteTime_eq_some {core : TBatcherCore} {expiry : TTimestamp} :
    core.getNextCompleteTime = some expiry ↔
      core.msgCount ≠ 0 ∧ timeLimitIsEnabled core.config = true ∧
        expiry = timeLimitExpiry core.minTimestamp core.config.timeLimit := by
  unfold getNextCompleteTime isEmpty
  by_cases empty : core.msgCount = 0
  · simp [empty]
  · by_cases timed : timeLimitIsEnabled core.config = true
    · simp only [empty, timed, beq_iff_eq, Bool.not_true, Bool.or_false, if_false,
        Option.some.injEq]
      exact ⟨fun same => ⟨empty, trivial, same.symm⟩, fun ⟨_, _, same⟩ => same.symm⟩
    · simp [timed]

@[simp] theorem clearState_getNextCompleteTime (core : TBatcherCore) :
    core.clearState.getNextCompleteTime = none := rfl

@[simp] theorem clearState_config (core : TBatcherCore) :
    core.clearState.config = core.config := rfl

@[simp] theorem updateState_config (core : TBatcherCore) (timestamp : TTimestamp)
    (bodySize : Nat) : (core.updateState timestamp bodySize).config = core.config := rfl

@[simp] theorem clearState_msgCount (core : TBatcherCore) :
    core.clearState.msgCount = 0 := rfl

@[simp] theorem clearState_byteCount (core : TBatcherCore) :
    core.clearState.byteCount = 0 := rfl

@[simp] theorem clearState_minTimestamp (core : TBatcherCore) :
    core.clearState.minTimestamp = Int64.maxValue := rfl

@[simp] theorem updateState_msgCount (core : TBatcherCore) (timestamp : TTimestamp)
    (bodySize : Nat) : (core.updateState timestamp bodySize).msgCount = core.msgCount + 1 :=
  rfl

@[simp] theorem updateState_byteCount (core : TBatcherCore) (timestamp : TTimestamp)
    (bodySize : Nat) :
    (core.updateState timestamp bodySize).byteCount = core.byteCount + bodySize := rfl

@[simp] theorem updateState_minTimestamp (core : TBatcherCore) (timestamp : TTimestamp)
    (bodySize : Nat) :
    (core.updateState timestamp bodySize).minTimestamp = min core.minTimestamp timestamp :=
  rfl

/-!
### What one `processNewMsg` call can do

With batching enabled there are exactly four outcomes.  Each records the
state it leaves and the guards that led to it; every later law about the
counters and the limits is read off this lemma rather than off the
definition.
-/

/-- The four outcomes of `processNewMsg` under an enabled configuration. -/
theorem processNewMsg_cases {core next : TBatcherCore} {now : TTimestamp} {msg : TMsg}
    {action : TAction} (enabled : batchingIsEnabled core.config = true)
    (processed : core.processNewMsg now msg = (action, next)) :
    (action = .leaveMsgAndReturnBatch ∧ next = core.clearState) ∨
    (action = .returnBatchAndTakeMsg ∧
      next = core.clearState.updateState msg.timestamp msg.bodySize ∧
      ¬(byteCountLimitIsEnabled core.config = true ∧ core.config.byteCount ≤ msg.bodySize) ∧
      core.clearState.testMsgCount true = false ∧
      core.clearState.testTimeLimit now msg.timestamp = false) ∨
    (action = .takeMsgAndReturnBatch ∧
      next = (core.updateState msg.timestamp msg.bodySize).clearState ∧
      core.testByteCountExceeded msg.bodySize = false) ∨
    (action = .takeMsgAndLeaveBatch ∧
      next = core.updateState msg.timestamp msg.bodySize ∧
      core.testByteCountExceeded msg.bodySize = false ∧
      (core.updateState msg.timestamp msg.bodySize).testAllLimits now = false) := by
  simp only [processNewMsg, enabled, Bool.not_true, Bool.false_eq_true, if_false] at processed
  by_cases tooLarge : byteCountLimitIsEnabled core.config = true ∧
      core.config.byteCount ≤ msg.bodySize
  · have guard : (byteCountLimitIsEnabled core.config &&
        decide (core.config.byteCount ≤ msg.bodySize)) = true := by simp [tooLarge]
    rw [if_pos guard] at processed
    cases processed
    exact Or.inl ⟨rfl, rfl⟩
  · have guard : (byteCountLimitIsEnabled core.config &&
        decide (core.config.byteCount ≤ msg.bodySize)) = false := by
      simpa using tooLarge
    rw [if_neg (by simp [guard])] at processed
    cases exceeded : core.testByteCountExceeded msg.bodySize with
    | true =>
        rw [if_pos exceeded] at processed
        cases alone : (core.clearState.testMsgCount true ||
            core.clearState.testTimeLimit now msg.timestamp) with
        | true =>
            rw [if_pos alone] at processed
            cases processed
            exact Or.inl ⟨rfl, rfl⟩
        | false =>
            rw [if_neg (by simp [alone])] at processed
            cases processed
            simp only [Bool.or_eq_false_iff] at alone
            exact Or.inr (Or.inl ⟨rfl, rfl, tooLarge, alone.1, alone.2⟩)
    | false =>
        rw [if_neg (by simp [exceeded])] at processed
        cases full : (core.updateState msg.timestamp msg.bodySize).testAllLimits now with
        | true =>
            rw [if_pos full] at processed
            cases processed
            exact Or.inr (Or.inr (Or.inl ⟨rfl, rfl, rfl⟩))
        | false =>
            rw [if_neg (by simp [full])] at processed
            cases processed
            exact Or.inr (Or.inr (Or.inr ⟨rfl, rfl, rfl, rfl⟩))

/-!
### Counters and limits
-/

/-- The counters of `core` describe the held message list `msgs`: its
length, its charged byte total and its smallest timestamp. -/
structure Describes (core : TBatcherCore) (msgs : List TMsg) : Prop where
  msgCount : core.msgCount = msgs.length
  byteCount : core.byteCount = byteCountOf msgs
  minTimestamp : core.minTimestamp = minTimestampOf msgs

/-- The held batch is strictly below the enabled count and byte limits. -/
structure BelowLimits (core : TBatcherCore) : Prop where
  msgCount : msgCountLimitIsEnabled core.config = true → core.msgCount < core.config.msgCount
  byteCount : byteCountLimitIsEnabled core.config = true →
    core.byteCount < core.config.byteCount

/-- A batch handed back to the caller respects the enabled count and byte
limits. -/
structure WithinLimits (config : TBatchConfig) (msgs : List TMsg) : Prop where
  msgCount : msgCountLimitIsEnabled config = true → msgs.length ≤ config.msgCount
  byteCount : byteCountLimitIsEnabled config = true → byteCountOf msgs ≤ config.byteCount

/-- A held batch below the limits is within them. -/
theorem Describes.withinLimits {core : TBatcherCore} {msgs : List TMsg}
    (describes : core.Describes msgs) (below : core.BelowLimits) : WithinLimits core.config msgs := by
  refine ⟨fun counted => ?_, fun bounded => ?_⟩
  · have := below.msgCount counted
    rw [describes.msgCount] at this
    omega
  · have := below.byteCount bounded
    rw [describes.byteCount] at this
    omega

theorem withinLimits_nil (config : TBatchConfig) : WithinLimits config [] :=
  ⟨fun _ => Nat.zero_le _, fun _ => Nat.zero_le _⟩

/-- The limits read the batch as a multiset. -/
theorem WithinLimits.perm {config : TBatchConfig} {msgs other : List TMsg}
    (within : WithinLimits config msgs) (perm : msgs.Perm other) : WithinLimits config other := by
  refine ⟨fun counted => ?_, fun bounded => ?_⟩
  · rw [← perm.length_eq]
    exact within.msgCount counted
  · rw [← byteCountOf_perm perm]
    exact within.byteCount bounded

/-- `now` is before the expiry of a batch whose smallest timestamp is
`core.minTimestamp`, in exact (not wrapped) arithmetic. -/
def BeforeExpiry (core : TBatcherCore) (now : TTimestamp) : Prop :=
  timeLimitIsEnabled core.config = true →
    now.toInt < core.minTimestamp.toInt + core.config.timeLimit

theorem clearState_describes (core : TBatcherCore) : core.clearState.Describes [] :=
  ⟨rfl, rfl, rfl⟩

theorem Describes.updateState {core : TBatcherCore} {msgs : List TMsg}
    (describes : core.Describes msgs) (msg : TMsg) :
    (core.updateState msg.timestamp msg.bodySize).Describes (msgs ++ [msg]) := by
  refine ⟨?_, ?_, ?_⟩
  · simp [describes.msgCount]
  · simp [describes.byteCount]
  · simp [describes.minTimestamp]

theorem clearState_belowLimits (core : TBatcherCore) : core.clearState.BelowLimits := by
  refine ⟨fun enabled => ?_, fun enabled => ?_⟩
  · simpa [msgCountLimitIsEnabled, Nat.pos_iff_ne_zero] using enabled
  · simpa [byteCountLimitIsEnabled, Nat.pos_iff_ne_zero] using enabled

/-- A wrapped expiry that is still ahead of `now` is ahead of it in exact
arithmetic too: wrapping only ever lowers a sum that starts at or above
`INT64_MIN`. -/
theorem lt_of_lt_timeLimitExpiry {now timestamp : TTimestamp} {timeLimit : Nat}
    (ahead : now < timeLimitExpiry timestamp timeLimit) :
    now.toInt < timestamp.toInt + timeLimit := by
  rw [timeLimitExpiry, Int64.lt_iff_toInt_lt, Int64.toInt_ofInt] at ahead
  have lower := timestamp.le_toInt
  have wrapped : (timestamp.toInt + timeLimit).bmod Int64.size ≤
      timestamp.toInt + timeLimit := by
    rw [Int.bmod_def]
    split <;> simp [Int64.size] at * <;> omega
  omega

theorem clearState_beforeExpiry (core : TBatcherCore) (now : TTimestamp) :
    core.clearState.BeforeExpiry now := by
  intro enabled
  have positive : 0 < core.config.timeLimit := by
    simpa [timeLimitIsEnabled, Nat.pos_iff_ne_zero] using enabled
  have top : Int64.maxValue.toInt = 2 ^ 63 - 1 := by decide
  have bounded := now.toInt_le
  simp only [clearState_minTimestamp, clearState_config]
  omega

theorem min_maxValue (timestamp : TTimestamp) : min timestamp Int64.maxValue = timestamp := by
  have below : timestamp ≤ Int64.maxValue :=
    Int64.le_iff_toInt_le.mpr timestamp.toInt_le
  simp [min, below]

theorem maxValue_min (timestamp : TTimestamp) : min Int64.maxValue timestamp = timestamp := by
  by_cases same : timestamp = Int64.maxValue
  · simp [same, min]
  · have below : ¬ Int64.maxValue ≤ timestamp := by
      intro above
      apply same
      rw [← Int64.toInt_inj]
      have := Int64.le_iff_toInt_le.mp above
      have := timestamp.toInt_le
      simp only [Int64.maxValue] at *
      omega
    simp [min, below]

/-!
### The held list and the returned batch of each action

`heldAfter` and `returnedBatch` say what each action means for the message
list the caller keeps beside the core: whether the held list is handed back,
whether the new message joins it, and `leftMsg` whether the message stays
with the caller.  Both batchers built on the core follow this reading.
-/

/-- The message list held after an action, given the list before and the new
message. -/
def heldAfter : TAction → List TMsg → TMsg → List TMsg
  | .leaveMsgAndReturnBatch, _, _ => []
  | .returnBatchAndTakeMsg, _, msg => [msg]
  | .takeMsgAndReturnBatch, _, _ => []
  | .takeMsgAndLeaveBatch, msgs, msg => msgs ++ [msg]

/-- The batch an action hands back, given the held list and the new message. -/
def returnedBatch : TAction → List TMsg → TMsg → List TMsg
  | .leaveMsgAndReturnBatch, msgs, _ => msgs
  | .returnBatchAndTakeMsg, msgs, _ => msgs
  | .takeMsgAndReturnBatch, msgs, msg => msgs ++ [msg]
  | .takeMsgAndLeaveBatch, _, _ => []

/-- The message an action leaves with the caller. -/
def leftMsg : TAction → TMsg → Option TMsg
  | .leaveMsgAndReturnBatch, msg => some msg
  | _, _ => none

/-- Every action hands back, leaves and holds exactly the old batch followed
by the new message. -/
theorem returnedBatch_append_leftMsg_heldAfter (action : TAction) (msgs : List TMsg)
    (msg : TMsg) :
    returnedBatch action msgs msg ++ (leftMsg action msg).toList ++ heldAfter action msgs msg =
      msgs ++ [msg] := by
  cases action <;> simp [returnedBatch, leftMsg, heldAfter]

/-- The held list after an action reads the list before as a multiset. -/
theorem heldAfter_perm (action : TAction) {msgs other : List TMsg} (perm : msgs.Perm other)
    (msg : TMsg) : (heldAfter action msgs msg).Perm (heldAfter action other msg) := by
  cases action with
  | takeMsgAndLeaveBatch => exact perm.append_right [msg]
  | _ => exact List.Perm.refl _

/-- So does the returned batch. -/
theorem returnedBatch_perm (action : TAction) {msgs other : List TMsg} (perm : msgs.Perm other)
    (msg : TMsg) : (returnedBatch action msgs msg).Perm (returnedBatch action other msg) := by
  cases action with
  | leaveMsgAndReturnBatch => exact perm
  | returnBatchAndTakeMsg => exact perm
  | takeMsgAndReturnBatch => exact perm.append_right [msg]
  | takeMsgAndLeaveBatch => exact List.Perm.refl _

theorem processNewMsg_describes {core next : TBatcherCore} {now : TTimestamp} {msg : TMsg}
    {action : TAction} {msgs : List TMsg} (enabled : batchingIsEnabled core.config = true)
    (processed : core.processNewMsg now msg = (action, next)) (describes : core.Describes msgs) :
    next.Describes (heldAfter action msgs msg) := by
  rcases processNewMsg_cases enabled processed with
    ⟨rfl, rfl⟩ | ⟨rfl, rfl, -⟩ | ⟨rfl, rfl, -⟩ | ⟨rfl, rfl, -⟩
  · exact clearState_describes core
  · exact (clearState_describes core).updateState msg
  · exact clearState_describes _
  · exact describes.updateState msg

theorem processNewMsg_config {core next : TBatcherCore} {now : TTimestamp} {msg : TMsg}
    {action : TAction} (enabled : batchingIsEnabled core.config = true)
    (processed : core.processNewMsg now msg = (action, next)) : next.config = core.config := by
  rcases processNewMsg_cases enabled processed with
    ⟨-, rfl⟩ | ⟨-, rfl, -⟩ | ⟨-, rfl, -⟩ | ⟨-, rfl, -⟩ <;> rfl

/-- After a call the held batch is strictly below the enabled count and byte
limits. -/
theorem processNewMsg_belowLimits {core next : TBatcherCore} {now : TTimestamp} {msg : TMsg}
    {action : TAction} (enabled : batchingIsEnabled core.config = true)
    (processed : core.processNewMsg now msg = (action, next)) : next.BelowLimits := by
  rcases processNewMsg_cases enabled processed with
    ⟨-, rfl⟩ | ⟨-, rfl, small, single, -⟩ | ⟨-, rfl, -⟩ | ⟨-, rfl, -, full⟩
  · exact clearState_belowLimits core
  · refine ⟨fun counted => ?_, fun bounded => ?_⟩
    · simp only [updateState_config, clearState_config] at counted
      simp only [testMsgCount, clearState_config, clearState_msgCount, counted, if_true,
        Bool.true_and, decide_eq_false_iff_not, not_le] at single
      simpa using single
    · simp only [updateState_config, clearState_config] at bounded
      simp only [bounded, true_and, not_le] at small
      simpa using small
  · exact clearState_belowLimits _
  · simp only [testAllLimits, Bool.or_eq_false_iff] at full
    obtain ⟨⟨-, countFull⟩, byteFull⟩ := full
    refine ⟨fun counted => ?_, fun bounded => ?_⟩
    · simp only [updateState_config] at counted
      simp only [testMsgCount, updateState_config, counted, Bool.true_and] at countFull
      simpa using countFull
    · simp only [updateState_config] at bounded
      simp only [testByteCount, updateState_config, bounded, Bool.true_and] at byteFull
      simpa using byteFull

/-- After a call, `now` is still before the expiry of the held batch. -/
theorem processNewMsg_beforeExpiry {core next : TBatcherCore} {now : TTimestamp} {msg : TMsg}
    {action : TAction} (enabled : batchingIsEnabled core.config = true)
    (processed : core.processNewMsg now msg = (action, next)) : next.BeforeExpiry now := by
  rcases processNewMsg_cases enabled processed with
    ⟨-, rfl⟩ | ⟨-, rfl, -, -, early⟩ | ⟨-, rfl, -⟩ | ⟨-, rfl, -, full⟩
  · exact clearState_beforeExpiry core now
  · intro timed
    simp only [testTimeLimit, clearState_config, clearState_minTimestamp, maxValue_min,
      Bool.and_eq_false_iff, decide_eq_false_iff_not, Int64.not_le] at early
    rcases early with disabled | ahead
    · simp [disabled] at timed
    · simpa [maxValue_min] using lt_of_lt_timeLimitExpiry ahead
  · exact clearState_beforeExpiry _ now
  · intro timed
    simp only [testAllLimits, Bool.or_eq_false_iff] at full
    obtain ⟨⟨timeFull, -⟩, -⟩ := full
    simp only [testTimeLimit, min_maxValue, Bool.and_eq_false_iff, decide_eq_false_iff_not,
      Int64.not_le] at timeFull
    rcases timeFull with disabled | ahead
    · simp only [updateState_config] at disabled
      simp [disabled] at timed
    · exact lt_of_lt_timeLimitExpiry ahead

/-- After a call, the next complete time of the held batch, when it has one,
is after `now` in `int64_t` order: the time test that the call passed is the
test a caller's expiry check repeats. -/
theorem processNewMsg_nextCompleteTime_after {core next : TBatcherCore} {now : TTimestamp}
    {msg : TMsg} {action : TAction} {expiry : TTimestamp}
    (enabled : batchingIsEnabled core.config = true)
    (processed : core.processNewMsg now msg = (action, next))
    (scheduled : next.getNextCompleteTime = some expiry) : now < expiry := by
  rcases processNewMsg_cases enabled processed with
    ⟨-, rfl⟩ | ⟨-, rfl, -, -, early⟩ | ⟨-, rfl, -⟩ | ⟨-, rfl, -, full⟩
  · simp at scheduled
  · obtain ⟨-, timed, rfl⟩ := getNextCompleteTime_eq_some.mp scheduled
    simp only [updateState_config, clearState_config] at timed
    simp only [testTimeLimit, Bool.and_eq_false_iff, decide_eq_false_iff_not,
      Int64.not_le] at early
    rcases early with disabled | ahead
    · simp [timed] at disabled
    · exact ahead
  · simp at scheduled
  · obtain ⟨-, timed, rfl⟩ := getNextCompleteTime_eq_some.mp scheduled
    simp only [testAllLimits, Bool.or_eq_false_iff] at full
    obtain ⟨⟨timeFull, -⟩, -⟩ := full
    simp only [testTimeLimit, min_maxValue, Bool.and_eq_false_iff, decide_eq_false_iff_not,
      Int64.not_le] at timeFull
    rcases timeFull with disabled | ahead
    · simp only [updateState_config] at timed
      simp [timed] at disabled
    · exact ahead

/-- The batch a call hands back respects the enabled limits, when the held
batch did before the call. -/
theorem processNewMsg_returned_within {core next : TBatcherCore} {now : TTimestamp}
    {msg : TMsg} {action : TAction} {msgs : List TMsg}
    (enabled : batchingIsEnabled core.config = true)
    (processed : core.processNewMsg now msg = (action, next)) (describes : core.Describes msgs)
    (below : core.BelowLimits) :
    WithinLimits core.config (returnedBatch action msgs msg) := by
  have heldWithin := describes.withinLimits below
  rcases processNewMsg_cases enabled processed with
    ⟨rfl, -⟩ | ⟨rfl, -⟩ | ⟨rfl, -, fits⟩ | ⟨rfl, -⟩
  · exact heldWithin
  · exact heldWithin
  · refine ⟨fun counted => ?_, fun bounded => ?_⟩
    · have := below.msgCount counted
      rw [describes.msgCount] at this
      simp only [returnedBatch, List.length_append, List.length_singleton]
      omega
    · simp [testByteCountExceeded, bounded] at fits
      rw [describes.byteCount] at fits
      simpa [returnedBatch] using fits
  · exact withinLimits_nil core.config

end TBatcherCore

end Dory.Batch
