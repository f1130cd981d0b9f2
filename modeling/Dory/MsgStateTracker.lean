/-
Module: Dory.MsgStateTracker
Purpose: `TMsgStateTracker` (msg_state_tracker.cc): the state each message
  records (`TMsg::TState`), the deltas a call computes for the transitions it
  is asked for (`TDeltaComputer`), and the counts it keeps: per topic the
  messages in Batching, SendWait and AckWait, and overall those in New.  A
  transition the tracker does not allow is logged as a bug and asserted
  false; a list call asserts that its messages share one topic, and
  `UpdateStats` asserts that no count goes below zero.  Each assert is the
  fault `assertionFailure`, as a debug build runs it.  `Accurate` says what
  the counts are for: they are the numbers of live messages in each state,
  and every call of allowed transitions on messages of one topic keeps them
  so.
Trusted boundary: none
Main exports: TMsgState, allowedTransition, TDeltaComputer, countEntered,
  TMsgStateTracker, updateStats, msgEnter, msgEnterList, msgEnterLists,
  Accurate, msgEnterList_accurate, msgEnterList_of_bad
-/
import Dory.Msg
import Dory.Foundation.Simulation
import Mathlib

namespace Dory

open Dory.Foundation

/-! ### States and transitions -/

/-- `TMsg::TState`. -/
inductive TMsgState where
  | new
  | batching
  | sendWait
  | ackWait
  | processed
deriving DecidableEq, Repr

/-- The transitions the tracker counts.  Every other one is a bug it logs and
asserts against.  SendWait may be entered again, and is then left as it
was. -/
def allowedTransition : TMsgState → TMsgState → Bool
  | .new, .batching => true
  | .new, .sendWait => true
  | .batching, .sendWait => true
  | .sendWait, .sendWait => true
  | .ackWait, .sendWait => true
  | .sendWait, .ackWait => true
  | .new, .processed => true
  | .sendWait, .processed => true
  | .ackWait, .processed => true
  | _, _ => false

/-- What can go wrong in a call: an `assert()` whose condition is false. -/
inductive TTrackerFault where
  | assertionFailure
deriving DecidableEq, Repr

/-! ### Deltas -/

/-- `TMsgStateTracker::TDeltaComputer`: the changes a call makes to the
counts. -/
structure TDeltaComputer where
  newDelta : Int := 0
  batchingDelta : Int := 0
  sendWaitDelta : Int := 0
  ackWaitDelta : Int := 0
deriving DecidableEq, Repr

namespace TDeltaComputer

/-- The delta of the count a state is counted in; Processed is counted in
none. -/
def get (comp : TDeltaComputer) : TMsgState → Int
  | .new => comp.newDelta
  | .batching => comp.batchingDelta
  | .sendWait => comp.sendWaitDelta
  | .ackWait => comp.ackWaitDelta
  | .processed => 0

/-- Add `change` to the delta of the count `state` is counted in. -/
def count (comp : TDeltaComputer) (state : TMsgState) (change : Int) : TDeltaComputer :=
  match state with
  | .new => { comp with newDelta := comp.newDelta + change }
  | .batching => { comp with batchingDelta := comp.batchingDelta + change }
  | .sendWait => { comp with sendWaitDelta := comp.sendWaitDelta + change }
  | .ackWait => { comp with ackWaitDelta := comp.ackWaitDelta + change }
  | .processed => comp

@[simp] theorem get_count (comp : TDeltaComputer) (state : TMsgState) (change : Int) (other : TMsgState)
    (counted : other ≠ .processed) :
    (comp.count state change).get other = comp.get other + if state = other then change else 0 := by
  cases state <;> cases other <;> simp_all [count, get]

@[simp] theorem get_empty (state : TMsgState) : ({} : TDeltaComputer).get state = 0 := by
  cases state <;> rfl

end TDeltaComputer

/-- `CountBatchingEntered`, `CountSendWaitEntered`, `CountAckWaitEntered`
and `CountProcessedEntered`, which differ in the state entered: an allowed
transition leaves the count of the state left and enters that of the state
entered; any other is asserted against. -/
def countEntered (target : TMsgState) (comp : TDeltaComputer) (prevState : TMsgState) :
    Except TTrackerFault TDeltaComputer :=
  if allowedTransition prevState target then .ok ((comp.count prevState (-1)).count target 1)
  else .error .assertionFailure

/-- `TDeltaComputer::CountBatchingEntered`. -/
def countBatchingEntered (comp : TDeltaComputer) (prevState : TMsgState) : Except TTrackerFault TDeltaComputer :=
  countEntered .batching comp prevState

/-- `TDeltaComputer::CountSendWaitEntered`. -/
def countSendWaitEntered (comp : TDeltaComputer) (prevState : TMsgState) : Except TTrackerFault TDeltaComputer :=
  countEntered .sendWait comp prevState

/-- `TDeltaComputer::CountAckWaitEntered`. -/
def countAckWaitEntered (comp : TDeltaComputer) (prevState : TMsgState) : Except TTrackerFault TDeltaComputer :=
  countEntered .ackWait comp prevState

/-- `TDeltaComputer::CountProcessedEntered`. -/
def countProcessedEntered (comp : TDeltaComputer) (prevState : TMsgState) : Except TTrackerFault TDeltaComputer :=
  countEntered .processed comp prevState

theorem countEntered_of_allowed {target prevState : TMsgState} (comp : TDeltaComputer)
    (allowed : allowedTransition prevState target = true) :
    countEntered target comp prevState = .ok ((comp.count prevState (-1)).count target 1) := by
  rw [countEntered, if_pos allowed]

theorem countEntered_of_not_allowed {target prevState : TMsgState} (comp : TDeltaComputer)
    (refused : allowedTransition prevState target = false) :
    countEntered target comp prevState = .error .assertionFailure := by
  rw [countEntered, if_neg (by simp [refused])]

/-! ### The tracker -/

/-- `TTopicStats`: the counts of one topic. -/
structure TTopicStats where
  batchingCount : Int := 0
  sendWaitCount : Int := 0
  ackWaitCount : Int := 0
deriving DecidableEq, Repr

/-- `TMsgStateTracker`: the per-topic counts and the count of new messages.
The map `TopicStats` is a function: a topic it does not hold reads as the
zero counts that `TTopicStatsWrapper()` inserts, and it drops an entry only
when its counts are zero, which changes no lookup. -/
structure TMsgStateTracker where
  topicStats : String → TTopicStats := fun _ => {}
  newCount : Int := 0

namespace TMsgStateTracker

/-- `MsgEnterNew()`: a message was made. -/
def msgEnterNew (tracker : TMsgStateTracker) : TMsgStateTracker :=
  { tracker with newCount := tracker.newCount + 1 }

/-- `UpdateStats(topic, comp)`: when the call changed a count of the topic,
add the deltas to its counts, asserting each stays at least zero; add the
delta of New in any case. -/
def updateStats (tracker : TMsgStateTracker) (topic : String) (comp : TDeltaComputer) :
    Except TTrackerFault TMsgStateTracker :=
  if comp.batchingDelta ≠ 0 ∨ comp.sendWaitDelta ≠ 0 ∨ comp.ackWaitDelta ≠ 0 then
    let stats := tracker.topicStats topic
    let batchingCount := stats.batchingCount + comp.batchingDelta
    let sendWaitCount := stats.sendWaitCount + comp.sendWaitDelta
    let ackWaitCount := stats.ackWaitCount + comp.ackWaitDelta
    if 0 ≤ batchingCount ∧ 0 ≤ sendWaitCount ∧ 0 ≤ ackWaitCount then
      .ok { topicStats := Function.update tracker.topicStats topic { batchingCount, sendWaitCount, ackWaitCount }
            newCount := tracker.newCount + comp.newDelta }
    else .error .assertionFailure
  else .ok { tracker with newCount := tracker.newCount + comp.newDelta }

/-- `MsgEnter*(msg)` for one message: count its transition and set its
state. -/
def msgEnter (target : TMsgState) (tracker : TMsgStateTracker) (msg : TMsg × TMsgState) :
    Except TTrackerFault (TMsgStateTracker × (TMsg × TMsgState)) := do
  let comp ← countEntered target {} msg.2
  let tracker ← tracker.updateStats msg.1.topic comp
  pure (tracker, (msg.1, target))

/-- The loop of `MsgEnter*(msg_list)`: every message must have the list's
topic, and each transition is counted. -/
def countList (target : TMsgState) (topic : String) (comp : TDeltaComputer) :
    List (TMsg × TMsgState) → Except TTrackerFault TDeltaComputer
  | [] => .ok comp
  | msg :: rest =>
      if msg.1.topic = topic then do
        let comp ← countEntered target comp msg.2
        countList target topic comp rest
      else .error .assertionFailure

/-- `MsgEnter*(msg_list)`: nothing for an empty list; otherwise the list's
topic is its first message's, the transitions are counted, the counts of
that topic updated, and every message's state set. -/
def msgEnterList (target : TMsgState) (tracker : TMsgStateTracker) (msgs : List (TMsg × TMsgState)) :
    Except TTrackerFault (TMsgStateTracker × List (TMsg × TMsgState)) :=
  match msgs with
  | [] => .ok (tracker, [])
  | first :: _ => do
      let comp ← countList target first.1.topic {} msgs
      let tracker ← tracker.updateStats first.1.topic comp
      pure (tracker, msgs.map fun msg => (msg.1, target))

/-- `MsgEnter*(msg_list_list)`: each inner list in turn. -/
def msgEnterLists (target : TMsgState) (tracker : TMsgStateTracker) :
    List (List (TMsg × TMsgState)) → Except TTrackerFault (TMsgStateTracker × List (List (TMsg × TMsgState)))
  | [] => .ok (tracker, [])
  | msgs :: rest => do
      let (tracker, entered) ← tracker.msgEnterList target msgs
      let (tracker, others) ← tracker.msgEnterLists target rest
      pure (tracker, entered :: others)

/-- `MsgEnterBatching(msg)`. -/
def msgEnterBatching (tracker : TMsgStateTracker) (msg : TMsg × TMsgState) :
    Except TTrackerFault (TMsgStateTracker × (TMsg × TMsgState)) :=
  tracker.msgEnter .batching msg

/-- `MsgEnterSendWait(msg)`. -/
def msgEnterSendWait (tracker : TMsgStateTracker) (msg : TMsg × TMsgState) :
    Except TTrackerFault (TMsgStateTracker × (TMsg × TMsgState)) :=
  tracker.msgEnter .sendWait msg

/-- `MsgEnterSendWait(msg_list)`. -/
def msgEnterSendWaitList (tracker : TMsgStateTracker) (msgs : List (TMsg × TMsgState)) :
    Except TTrackerFault (TMsgStateTracker × List (TMsg × TMsgState)) :=
  tracker.msgEnterList .sendWait msgs

/-- `MsgEnterSendWait(msg_list_list)`. -/
def msgEnterSendWaitLists (tracker : TMsgStateTracker) (batches : List (List (TMsg × TMsgState))) :
    Except TTrackerFault (TMsgStateTracker × List (List (TMsg × TMsgState))) :=
  tracker.msgEnterLists .sendWait batches

/-- `MsgEnterAckWait(msg)`. -/
def msgEnterAckWait (tracker : TMsgStateTracker) (msg : TMsg × TMsgState) :
    Except TTrackerFault (TMsgStateTracker × (TMsg × TMsgState)) :=
  tracker.msgEnter .ackWait msg

/-- `MsgEnterAckWait(msg_list)`. -/
def msgEnterAckWaitList (tracker : TMsgStateTracker) (msgs : List (TMsg × TMsgState)) :
    Except TTrackerFault (TMsgStateTracker × List (TMsg × TMsgState)) :=
  tracker.msgEnterList .ackWait msgs

/-- `MsgEnterAckWait(msg_list_list)`. -/
def msgEnterAckWaitLists (tracker : TMsgStateTracker) (batches : List (List (TMsg × TMsgState))) :
    Except TTrackerFault (TMsgStateTracker × List (List (TMsg × TMsgState))) :=
  tracker.msgEnterLists .ackWait batches

/-- `MsgEnterProcessed(msg)`. -/
def msgEnterProcessed (tracker : TMsgStateTracker) (msg : TMsg × TMsgState) :
    Except TTrackerFault (TMsgStateTracker × (TMsg × TMsgState)) :=
  tracker.msgEnter .processed msg

/-- `MsgEnterProcessed(msg_list)`. -/
def msgEnterProcessedList (tracker : TMsgStateTracker) (msgs : List (TMsg × TMsgState)) :
    Except TTrackerFault (TMsgStateTracker × List (TMsg × TMsgState)) :=
  tracker.msgEnterList .processed msgs

/-- `MsgEnterProcessed(msg_list_list)`. -/
def msgEnterProcessedLists (tracker : TMsgStateTracker) (batches : List (List (TMsg × TMsgState))) :
    Except TTrackerFault (TMsgStateTracker × List (List (TMsg × TMsgState))) :=
  tracker.msgEnterLists .processed batches

/-! ### What the counts are for -/

/-- How many of the messages have the topic and the state. -/
def countOf (topic : String) (state : TMsgState) (live : List (TMsg × TMsgState)) : Nat :=
  live.countP fun msg => msg.1.topic = topic ∧ msg.2 = state

/-- How many of the messages are in state New. -/
def newOf (live : List (TMsg × TMsgState)) : Nat :=
  live.countP fun msg => msg.2 = .new

/-- The tracker's counts are those of the live messages: per topic the
messages in Batching, SendWait and AckWait, and overall those in New. -/
structure Accurate (tracker : TMsgStateTracker) (live : List (TMsg × TMsgState)) : Prop where
  batching : ∀ topic, (tracker.topicStats topic).batchingCount = countOf topic .batching live
  sendWait : ∀ topic, (tracker.topicStats topic).sendWaitCount = countOf topic .sendWait live
  ackWait : ∀ topic, (tracker.topicStats topic).ackWaitCount = countOf topic .ackWait live
  new : tracker.newCount = newOf live

@[simp] theorem countOf_append (topic : String) (state : TMsgState) (first second : List (TMsg × TMsgState)) :
    countOf topic state (first ++ second) = countOf topic state first + countOf topic state second :=
  List.countP_append

@[simp] theorem newOf_append (first second : List (TMsg × TMsgState)) :
    newOf (first ++ second) = newOf first + newOf second :=
  List.countP_append

/-- On messages of one topic, the count of that topic is the count of the
state. -/
theorem countOf_of_single {topic : String} {msgs : List (TMsg × TMsgState)} (single : ∀ msg ∈ msgs, msg.1.topic = topic)
    (state : TMsgState) : countOf topic state msgs = msgs.countP fun msg => msg.2 = state := by
  apply List.countP_congr
  intro msg member
  simp [single msg member]

/-- On messages of one topic, every other topic counts none. -/
theorem countOf_of_other {topic other : String} {msgs : List (TMsg × TMsgState)}
    (single : ∀ msg ∈ msgs, msg.1.topic = topic) (different : other ≠ topic) (state : TMsgState) :
    countOf other state msgs = 0 := by
  rw [countOf, List.countP_eq_zero]
  intro msg member
  simp [single msg member, Ne.symm different]

/-- The counts only see the messages, not their order. -/
theorem Accurate.perm {tracker : TMsgStateTracker} {live live' : List (TMsg × TMsgState)}
    (accurate : Accurate tracker live) (perm : live.Perm live') : Accurate tracker live' :=
  ⟨fun topic => by rw [accurate.batching, countOf, countOf, perm.countP_eq],
    fun topic => by rw [accurate.sendWait, countOf, countOf, perm.countP_eq],
    fun topic => by rw [accurate.ackWait, countOf, countOf, perm.countP_eq],
    by rw [accurate.new, newOf, newOf, perm.countP_eq]⟩

/-- A new tracker counts no message. -/
theorem accurate_init : Accurate {} [] :=
  ⟨fun _ => rfl, fun _ => rfl, fun _ => rfl, rfl⟩

/-- A message that entered Processed is counted nowhere, so it may leave
the live messages. -/
theorem Accurate.of_processed {tracker : TMsgStateTracker} {live : List (TMsg × TMsgState)} {msg : TMsg}
    (accurate : Accurate tracker (live ++ [(msg, .processed)])) : Accurate tracker live :=
  ⟨fun topic => by simpa [countOf] using accurate.batching topic,
    fun topic => by simpa [countOf] using accurate.sendWait topic,
    fun topic => by simpa [countOf] using accurate.ackWait topic,
    by simpa [newOf] using accurate.new⟩

/-- A message is made: it is counted in New. -/
theorem msgEnterNew_accurate {tracker : TMsgStateTracker} {live : List (TMsg × TMsgState)}
    (accurate : Accurate tracker live) (msg : TMsg) :
    Accurate tracker.msgEnterNew (live ++ [(msg, .new)]) := by
  refine ⟨fun topic => ?_, fun topic => ?_, fun topic => ?_, ?_⟩
  · simp [msgEnterNew, accurate.batching, countOf]
  · simp [msgEnterNew, accurate.sendWait, countOf]
  · simp [msgEnterNew, accurate.ackWait, countOf]
  · simp [msgEnterNew, accurate.new, newOf]

/-! ### Calls of allowed transitions -/

/-- The messages of a list after they entered `target`. -/
def entered (target : TMsgState) (msgs : List (TMsg × TMsgState)) : List (TMsg × TMsgState) :=
  msgs.map fun msg => (msg.1, target)

@[simp] theorem entered_nil (target : TMsgState) : entered target [] = [] := rfl

@[simp] theorem entered_cons (target : TMsgState) (msg : TMsg × TMsgState) (msgs : List (TMsg × TMsgState)) :
    entered target (msg :: msgs) = (msg.1, target) :: entered target msgs := rfl

theorem single_entered {topic : String} {msgs : List (TMsg × TMsgState)} (single : ∀ msg ∈ msgs, msg.1.topic = topic)
    (target : TMsgState) : ∀ msg ∈ entered target msgs, msg.1.topic = topic := by
  intro msg member
  obtain ⟨original, kept, rfl⟩ := List.mem_map.mp member
  exact single original kept

/-- The loop of a list call, on messages of its topic whose transitions are
allowed: each count's delta is what entering `target` adds to it less what
leaving the old states takes from it. -/
theorem countList_of_allowed (target : TMsgState) (topic : String) :
    ∀ (comp : TDeltaComputer) (msgs : List (TMsg × TMsgState)), (∀ msg ∈ msgs, msg.1.topic = topic) →
      (∀ msg ∈ msgs, allowedTransition msg.2 target = true) →
      ∃ comp', countList target topic comp msgs = .ok comp' ∧ ∀ state, state ≠ .processed →
        comp'.get state = comp.get state + (((entered target msgs).countP fun msg => msg.2 = state : Nat) -
          ((msgs.countP fun msg => msg.2 = state : Nat) : Int))
  | comp, [], _, _ => ⟨comp, rfl, fun state _ => by simp⟩
  | comp, msg :: rest, single, allowed => by
      -- one transition counted, then the rest of the list from the new deltas
      obtain ⟨comp', counted, deltas⟩ := countList_of_allowed target topic
        ((comp.count msg.2 (-1)).count target 1) rest (fun other member => single other (.tail _ member))
        (fun other member => allowed other (.tail _ member))
      refine ⟨comp', ?_, fun state counts => ?_⟩
      · rw [countList, if_pos (single msg (.head _)),
          countEntered_of_allowed comp (allowed msg (.head _))]
        exact counted
      · rw [deltas state counts, TDeltaComputer.get_count _ _ _ _ counts,
          TDeltaComputer.get_count _ _ _ _ counts, entered_cons, List.countP_cons, List.countP_cons]
        by_cases leaves : msg.2 = state <;> by_cases enters : target = state <;> simp [leaves, enters] <;> omega

/-- `UpdateStats` with deltas that leave every count of the topic at least
zero: the topic's counts get the deltas, and so does New. -/
theorem updateStats_of_nonneg (tracker : TMsgStateTracker) (topic : String) (comp : TDeltaComputer)
    (nonneg : 0 ≤ (tracker.topicStats topic).batchingCount + comp.batchingDelta ∧
      0 ≤ (tracker.topicStats topic).sendWaitCount + comp.sendWaitDelta ∧
      0 ≤ (tracker.topicStats topic).ackWaitCount + comp.ackWaitDelta) :
    tracker.updateStats topic comp =
      .ok { topicStats := Function.update tracker.topicStats topic
              { batchingCount := (tracker.topicStats topic).batchingCount + comp.batchingDelta
                sendWaitCount := (tracker.topicStats topic).sendWaitCount + comp.sendWaitDelta
                ackWaitCount := (tracker.topicStats topic).ackWaitCount + comp.ackWaitDelta }
            newCount := tracker.newCount + comp.newDelta } := by
  unfold updateStats
  split
  · dsimp only
    rw [if_pos nonneg]
  · -- no count of the topic changes, so the map is as it was
    rename_i unchanged
    have zero : comp.batchingDelta = 0 ∧ comp.sendWaitDelta = 0 ∧ comp.ackWaitDelta = 0 := by omega
    obtain ⟨batching, sendWait, ackWait⟩ := zero
    rw [batching, sendWait, ackWait]
    simp only [Int.add_zero]
    rw [Function.update_eq_self]

/-- A list call of allowed transitions on messages of one topic keeps the
counts exact: the messages enter `target` among the other live messages,
and no assert fails. -/
theorem msgEnterList_accurate {tracker : TMsgStateTracker} {target : TMsgState} {topic : String}
    {msgs rest : List (TMsg × TMsgState)} (accurate : Accurate tracker (rest ++ msgs))
    (single : ∀ msg ∈ msgs, msg.1.topic = topic) (allowed : ∀ msg ∈ msgs, allowedTransition msg.2 target = true) :
    ∃ tracker', tracker.msgEnterList target msgs = .ok (tracker', entered target msgs) ∧
      Accurate tracker' (rest ++ entered target msgs) := by
  cases msgs with
  | nil => exact ⟨tracker, rfl, accurate⟩
  | cons first others =>
      have named : first.1.topic = topic := single first (.head _)
      obtain ⟨comp, counted, deltas⟩ := countList_of_allowed target first.1.topic {} (first :: others)
        (named ▸ single) allowed
      subst named
      have moved := single_entered single target
      -- the topic's counts after the call are those of the messages after it
      have after (state : TMsgState) (counts : state ≠ .processed) :
          (countOf first.1.topic state (rest ++ first :: others) : Int) + comp.get state =
            countOf first.1.topic state (rest ++ entered target (first :: others)) := by
        rw [deltas state counts, TDeltaComputer.get_empty, countOf_append, countOf_append,
          countOf_of_single single, countOf_of_single moved]
        push_cast
        omega
      have batching := after .batching (by decide)
      have sendWait := after .sendWait (by decide)
      have ackWait := after .ackWait (by decide)
      simp only [TDeltaComputer.get] at batching sendWait ackWait
      rw [← accurate.batching] at batching
      rw [← accurate.sendWait] at sendWait
      rw [← accurate.ackWait] at ackWait
      have stored := updateStats_of_nonneg tracker first.1.topic comp
        ⟨by rw [batching]; omega, by rw [sendWait]; omega, by rw [ackWait]; omega⟩
      refine ⟨_, by rw [msgEnterList, counted, ok_bind, stored]; rfl, ?_⟩
      -- another topic counts the same messages before and after the call
      have otherTopic (topic : String) (different : topic ≠ first.1.topic) (state : TMsgState) :
          countOf topic state (rest ++ entered target (first :: others)) =
            countOf topic state (rest ++ first :: others) := by
        rw [countOf_append, countOf_append, countOf_of_other single different,
          countOf_of_other moved different]
      have newAfter := deltas .new (by decide)
      simp only [TDeltaComputer.get] at newAfter
      refine ⟨fun topic => ?_, fun topic => ?_, fun topic => ?_, ?_⟩
      · dsimp only
        by_cases same : topic = first.1.topic
        · subst same
          simp only [Function.update_self]
          exact batching
        · rw [Function.update_of_ne same, accurate.batching, otherTopic topic same]
      · dsimp only
        by_cases same : topic = first.1.topic
        · subst same
          simp only [Function.update_self]
          exact sendWait
        · rw [Function.update_of_ne same, accurate.sendWait, otherTopic topic same]
      · dsimp only
        by_cases same : topic = first.1.topic
        · subst same
          simp only [Function.update_self]
          exact ackWait
        · rw [Function.update_of_ne same, accurate.ackWait, otherTopic topic same]
      · show tracker.newCount + comp.newDelta = _
        rw [accurate.new, newAfter, newOf_append, newOf_append, newOf, newOf, newOf]
        push_cast
        omega

/-- One message is a list of one message. -/
theorem msgEnter_eq (target : TMsgState) (tracker : TMsgStateTracker) (msg : TMsg × TMsgState) :
    tracker.msgEnter target msg = (tracker.msgEnterList target [msg]).map fun result => (result.1, (msg.1, target)) := by
  unfold msgEnter msgEnterList
  dsimp only [countList]
  rw [if_pos rfl]
  cases countEntered target {} msg.2 with
  | error fault => rfl
  | ok comp =>
      simp only [ok_bind]
      cases tracker.updateStats msg.1.topic comp with
      | error fault => rfl
      | ok updated => rfl

/-- A call for one message of an allowed transition keeps the counts
exact. -/
theorem msgEnter_accurate {tracker : TMsgStateTracker} {target : TMsgState} {msg : TMsg × TMsgState}
    {rest : List (TMsg × TMsgState)} (accurate : Accurate tracker (rest ++ [msg]))
    (allowed : allowedTransition msg.2 target = true) :
    ∃ tracker', tracker.msgEnter target msg = .ok (tracker', (msg.1, target)) ∧
      Accurate tracker' (rest ++ [(msg.1, target)]) := by
  obtain ⟨tracker', entered, exact⟩ := @msgEnterList_accurate tracker target msg.1.topic [msg] rest accurate
    (fun other member => by rw [List.mem_singleton.mp member]) (fun other member => by rw [List.mem_singleton.mp member]; exact allowed)
  refine ⟨tracker', ?_, exact⟩
  rw [msgEnter_eq, entered]
  rfl

/-- A call for one message asking for a transition the tracker does not
allow fails an assert. -/
theorem msgEnter_of_not_allowed {tracker : TMsgStateTracker} {target : TMsgState} {msg : TMsg × TMsgState}
    (refused : allowedTransition msg.2 target = false) : tracker.msgEnter target msg = .error .assertionFailure := by
  rw [msgEnter, countEntered_of_not_allowed _ refused]
  rfl

/-- A call on a list of lists, each of one topic and of allowed
transitions, keeps the counts exact. -/
theorem msgEnterLists_accurate {target : TMsgState} :
    ∀ {tracker : TMsgStateTracker} {batches : List (List (TMsg × TMsgState))} {rest : List (TMsg × TMsgState)},
      Accurate tracker (rest ++ batches.flatten) →
      (∀ batch ∈ batches, ∃ topic, ∀ msg ∈ batch, msg.1.topic = topic) →
      (∀ batch ∈ batches, ∀ msg ∈ batch, allowedTransition msg.2 target = true) →
      ∃ tracker', tracker.msgEnterLists target batches = .ok (tracker', batches.map (entered target)) ∧
        Accurate tracker' (rest ++ (batches.map (entered target)).flatten)
  | tracker, [], rest, accurate, _, _ => ⟨tracker, rfl, accurate⟩
  | tracker, batch :: others, rest, accurate, single, allowed => by
      obtain ⟨topic, named⟩ := single batch (.head _)
      -- the first list enters among the rest and the later lists
      have reordered : Accurate tracker ((rest ++ others.flatten) ++ batch) := by
        rw [List.flatten_cons] at accurate
        rw [List.append_assoc]
        exact accurate.perm (List.perm_append_comm.append_left rest)
      obtain ⟨middle, first, afterFirst⟩ := msgEnterList_accurate reordered named (allowed batch (.head _))
      have regrouped : Accurate middle ((rest ++ entered target batch) ++ others.flatten) := by
        rw [List.append_assoc] at afterFirst ⊢
        exact afterFirst.perm (List.perm_append_comm.append_left rest)
      obtain ⟨tracker', later, afterAll⟩ := msgEnterLists_accurate regrouped
        (fun other member => single other (.tail _ member))
        (fun other member => allowed other (.tail _ member))
      refine ⟨tracker', ?_, ?_⟩
      · rw [msgEnterLists, first, ok_bind]
        dsimp only
        rw [later, ok_bind]
        rfl
      · simpa only [List.map_cons, List.flatten_cons, List.append_assoc] using afterAll

/-! ### Calls the tracker asserts against -/

/-- The loop of a list call faults on a message of another topic or asked
for a transition the tracker does not allow. -/
theorem countList_of_bad (target : TMsgState) (topic : String) :
    ∀ (comp : TDeltaComputer) (msgs : List (TMsg × TMsgState)),
      (∃ msg ∈ msgs, msg.1.topic ≠ topic ∨ allowedTransition msg.2 target = false) →
      countList target topic comp msgs = .error .assertionFailure
  | _, [], ⟨_, member, _⟩ => absurd member List.not_mem_nil
  | comp, msg :: rest, ⟨bad, member, wrong⟩ => by
      rw [countList]
      by_cases named : msg.1.topic = topic
      · rw [if_pos named]
        cases allowed : allowedTransition msg.2 target with
        | false => rw [countEntered_of_not_allowed comp allowed]; rfl
        | true =>
            rw [countEntered_of_allowed comp allowed, ok_bind]
            -- the message at fault is further down the list
            refine countList_of_bad target topic _ rest ⟨bad, ?_, wrong⟩
            rcases List.mem_cons.mp member with rfl | later
            · rw [named, allowed] at wrong
              simp at wrong
            · exact later
      · rw [if_neg named]

/-- A list call with a message of another topic than its first, or asked
for a transition the tracker does not allow, fails an assert. -/
theorem msgEnterList_of_bad {tracker : TMsgStateTracker} {target : TMsgState} {first : TMsg × TMsgState}
    {others : List (TMsg × TMsgState)}
    (bad : ∃ msg ∈ first :: others, msg.1.topic ≠ first.1.topic ∨ allowedTransition msg.2 target = false) :
    tracker.msgEnterList target (first :: others) = .error .assertionFailure := by
  rw [msgEnterList, countList_of_bad target first.1.topic {} _ bad]
  rfl

end TMsgStateTracker

end Dory
