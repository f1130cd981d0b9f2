/-
Module: Dory.RouterThread.MsgStates
Purpose: What the router thread's calls do to the message states, over
  every run.  The router and the tracker are one state; the other threads'
  calls on messages outside the router, the dispatcher's among them, are
  any calls of allowed transitions (`Reachable`).  Over every such run the
  tracker's counts are those of the live messages (`Consistent`), and batch
  expiry never faults; `HandleMsgAvailable` never faults without a topic
  autocreate, and faults exactly when a metadata update of a topic
  autocreate drops a topic with batched messages, or a shutdown during a
  topic autocreate finds batches collected: both ask the tracker for
  Batching -> Processed, which it asserts against.
Trusted boundary: none
Main exports: Consistent, Reachable, reachable_consistent,
  routerThread_counts_exact, handleMsgAvailable_fails_iff,
  updateBatchStateForNewMetadata_asserts
-/
import Dory.RouterThread

namespace Dory

open Dory.Batch Dory.Batch.TPerTopicBatcher Dory.Foundation TMsgStateTracker

namespace TRouterThread

/-! ### The tracker counts the router's messages -/

/-- The router keeps its batcher's invariant for `config`, and the tracker
counts the batcher's messages, in Batching, with the messages `outside` the
router. -/
structure Consistent (config : TPerTopicConfig) (router : TRouterThread) (outside : List (TMsg × TMsgState)) :
    Prop where
  reached : Reached config router.perTopicBatcher
  accurate : Accurate router.msgStateTracker (batched router.perTopicBatcher.held ++ outside)

section Consistent

variable {config : TPerTopicConfig}

/-- The messages outside the router only count as a multiset. -/
theorem Consistent.perm {router : TRouterThread} {outside outside' : List (TMsg × TMsgState)}
    (consistent : Consistent config router outside) (perm : outside.Perm outside') :
    Consistent config router outside' :=
  ⟨consistent.reached, consistent.accurate.perm (perm.append_left _)⟩

/-- Only the batcher and the tracker are read. -/
theorem Consistent.of_eq {router router' : TRouterThread} {outside : List (TMsg × TMsgState)}
    (consistent : Consistent config router outside) (sameBatcher : router'.perTopicBatcher = router.perTopicBatcher)
    (sameTracker : router'.msgStateTracker = router.msgStateTracker) : Consistent config router' outside := by
  constructor
  · rw [sameBatcher]
    exact consistent.reached
  · rw [sameBatcher, sameTracker]
    exact consistent.accurate

/-- A discard of a message outside the router whose state may enter
Processed keeps the counts exact: the message is no longer live. -/
theorem discard_consistent {router : TRouterThread} {msg : TMsg × TMsgState} {outside : List (TMsg × TMsgState)}
    (consistent : Consistent config router (msg :: outside)) (allowed : allowedTransition msg.2 .processed = true) :
    ∃ tracker, router.discard msg = .ok { router with msgStateTracker := tracker } ∧
      Consistent config { router with msgStateTracker := tracker } outside := by
  have reordered : Accurate router.msgStateTracker ((batched router.perTopicBatcher.held ++ outside) ++ [msg]) :=
    consistent.accurate.perm (List.perm_middle.trans (List.perm_append_singleton _ _).symm)
  obtain ⟨tracker, called, exact⟩ := msgEnter_accurate reordered allowed
  refine ⟨tracker, ?_, consistent.reached, exact.of_processed⟩
  rw [discard, msgEnterProcessed, called, ok_bind]
  rfl

/-- Messages discarded one by one, each of a state that may enter
Processed, keep the counts exact. -/
theorem discardEach_consistent :
    ∀ {router : TRouterThread} {msgs outside : List (TMsg × TMsgState)}, Consistent config router (msgs ++ outside) →
      (∀ msg ∈ msgs, allowedTransition msg.2 .processed = true) →
      ∃ tracker, router.discardEach msgs = .ok { router with msgStateTracker := tracker } ∧
        Consistent config { router with msgStateTracker := tracker } outside
  | router, [], _, consistent, _ => ⟨router.msgStateTracker, rfl, consistent⟩
  | router, msg :: rest, _, consistent, allowed => by
      obtain ⟨tracker, discarded, consistent'⟩ := discard_consistent consistent (allowed msg (.head _))
      obtain ⟨tracker', later, consistent''⟩ :=
        discardEach_consistent consistent' fun other member => allowed other (.tail _ member)
      exact ⟨tracker', by rw [discardEach, discarded, ok_bind, later], consistent''⟩

/-- New messages discarded one by one keep the counts exact. -/
theorem discardEach_fresh {router : TRouterThread} {msgs : List TMsg} {outside : List (TMsg × TMsgState)}
    (consistent : Consistent config router (fresh msgs ++ outside)) :
    ∃ tracker, router.discardEach (fresh msgs) = .ok { router with msgStateTracker := tracker } ∧
      Consistent config { router with msgStateTracker := tracker } outside := by
  refine discardEach_consistent consistent fun msg member => ?_
  obtain ⟨original, -, rfl⟩ := List.mem_map.mp member
  rfl

/-- A discard in `ValidateNewMsg` keeps the counts exact. -/
theorem discardNewMsg_consistent {router : TRouterThread} {msg : TMsg} {outside : List (TMsg × TMsgState)}
    (consistent : Consistent config router ((msg, .new) :: outside)) :
    ∃ tracker, router.discardNewMsg msg = .ok (.discarded, { router with msgStateTracker := tracker }) ∧
      Consistent config { router with msgStateTracker := tracker } outside := by
  obtain ⟨tracker, discarded, consistent'⟩ := discard_consistent consistent rfl
  exact ⟨tracker, by rw [discardNewMsg, discarded, ok_bind]; rfl, consistent'⟩

/-- `RouteAnyPartitionNow` on batches of one topic each, whose messages are
in Batching: they enter SendWait and the counts stay exact. -/
theorem routeAnyPartitionNow_accurate {router : TRouterThread} {batches : List (List TMsg)}
    {rest : List (TMsg × TMsgState)} (accurate : Accurate router.msgStateTracker (rest ++ batched batches.flatten))
    (single : ∀ batch ∈ batches, ∃ topic, SingleTopic topic batch) :
    ∃ tracker, router.routeAnyPartitionNow batches = .ok { router with msgStateTracker := tracker } ∧
      Accurate tracker (rest ++ sent batches.flatten) := by
  have flat : (batches.map batched).flatten = batched batches.flatten := by
    simp only [batched, List.map_flatten]
    rfl
  have singleBatched : ∀ batch ∈ batches.map batched, ∃ topic, ∀ msg ∈ batch, msg.1.topic = topic := by
    intro batch member
    obtain ⟨original, kept, rfl⟩ := List.mem_map.mp member
    obtain ⟨topic, named⟩ := single original kept
    exact ⟨topic, fun msg inBatch => by
      obtain ⟨msg', held, rfl⟩ := List.mem_map.mp inBatch
      exact named msg' held⟩
  have allowed : ∀ batch ∈ batches.map batched, ∀ msg ∈ batch, allowedTransition msg.2 .sendWait = true := by
    intro batch member msg inBatch
    obtain ⟨original, -, rfl⟩ := List.mem_map.mp member
    obtain ⟨msg', -, rfl⟩ := List.mem_map.mp inBatch
    rfl
  obtain ⟨tracker, called, exact⟩ :=
    @msgEnterLists_accurate .sendWait router.msgStateTracker (batches.map batched) rest (flat ▸ accurate)
      singleBatched allowed
  have moved : ((batches.map batched).map (entered .sendWait)).flatten = sent batches.flatten := by
    simp only [List.map_map, Function.comp_def, entered_batched, sent, List.map_flatten]
  refine ⟨tracker, ?_, moved ▸ exact⟩
  rw [routeAnyPartitionNow, msgEnterSendWaitLists, called, ok_bind]
  rfl

/-! ### Metadata updates -/

/-- `UpdateBatchStateForNewMetadata` succeeds only when it takes no message
out of the batcher, since the batched ones would go from Batching to
Processed; the counts then stay exact. -/
theorem updateBatchStateForNewMetadata_consistent {router router' : TRouterThread}
    {outside : List (TMsg × TMsgState)} {oldOkTopics : List String} {newTopic : String → Option Bool}
    (consistent : Consistent config router outside)
    (updated : router.updateBatchStateForNewMetadata oldOkTopics newTopic = .ok router') :
    Consistent config router' outside := by
  obtain ⟨reached, perm⟩ := deleteTopics_perm newTopic oldOkTopics consistent.reached
  unfold updateBatchStateForNewMetadata at updated
  generalize deleteTopics newTopic oldOkTopics router.perTopicBatcher = split at reached perm updated
  obtain ⟨deleted, unavailable, batcher⟩ := split
  dsimp only at reached perm updated
  cases deleted with
  | cons first others =>
      rw [msgEnterProcessedList_batched (List.mem_cons_self ..)] at updated
      cases updated
  | nil =>
      cases unavailable with
      | cons first others =>
          rw [show router.msgStateTracker.msgEnterProcessedList (batched []) = .ok (router.msgStateTracker, [])
            from rfl, ok_bind] at updated
          dsimp only at updated
          rw [msgEnterProcessedList_batched (List.mem_cons_self ..)] at updated
          cases updated
      | nil =>
          -- nothing was taken out: the batcher holds what it held
          cases updated
          rw [List.nil_append, List.nil_append] at perm
          exact ⟨reached, consistent.accurate.perm ((perm.symm.map _).append_right outside)⟩

theorem setMetadata_consistent {router router' : TRouterThread} {outside : List (TMsg × TMsgState)}
    {metadata : TMetadata} (consistent : Consistent config router outside)
    (set : router.setMetadata metadata = .ok router') : Consistent config router' outside := by
  obtain ⟨updated, called, done⟩ := bind_eq_ok set
  cases done
  exact (updateBatchStateForNewMetadata_consistent consistent called).of_eq rfl rfl

theorem handleMetadataUpdate_consistent {router router' : TRouterThread} {outside : List (TMsg × TMsgState)}
    {fetched : Option TMetadata} {keepRunning : Bool} (consistent : Consistent config router outside)
    (handled : router.handleMetadataUpdate fetched = .ok (keepRunning, router')) :
    Consistent config router' outside := by
  unfold handleMetadataUpdate at handled
  split at handled
  · cases handled
    exact consistent
  · split at handled
    · cases handled
      exact consistent
    · obtain ⟨set, called, done⟩ := bind_eq_ok handled
      cases done
      exact setMetadata_consistent consistent called

theorem updateMetadataAfterTopicAutocreate_consistent {outside : List (TMsg × TMsgState)} (topic : String) :
    ∀ (attempts : Nat) (fetched : List (Option TMetadata)) {router router' : TRouterThread} {keepRunning : Bool},
      Consistent config router outside →
      router.updateMetadataAfterTopicAutocreate topic attempts fetched = .ok (keepRunning, router') →
      Consistent config router' outside
  | 0, _, _, _, _, consistent, updated => by
      cases updated
      exact consistent
  | attempts + 1, fetched, router, router', keepRunning, consistent, updated => by
      obtain ⟨⟨running, handled⟩, called, rest⟩ := bind_eq_ok updated
      have consistent' := handleMetadataUpdate_consistent consistent called
      dsimp only at rest
      split at rest
      · cases rest
        exact consistent'
      · split at rest
        · cases rest
          exact consistent'
        · exact updateMetadataAfterTopicAutocreate_consistent topic attempts fetched.tail consistent' rest

/-! ### One message -/

/-- A topic autocreate keeps the counts exact: the message is live after
it only when kept. -/
theorem autocreateTopic_consistent {router router' : TRouterThread} {msg : TMsg} {outside : List (TMsg × TMsgState)}
    {answer : TAutocreateAnswer} {validation : TValidation}
    (consistent : Consistent config router ((msg, .new) :: outside))
    (autocreated : router.autocreateTopic msg answer = .ok (validation, router')) :
    Consistent config router' (fresh (validation.survivor msg) ++ outside) := by
  cases answer with
  | fail =>
      obtain ⟨tracker, discarded, consistent'⟩ := discardNewMsg_consistent consistent
      rw [autocreateTopic, discarded] at autocreated
      cases autocreated
      exact consistent'
  | success fetched =>
      obtain ⟨⟨keepRunning, updated⟩, called, rest⟩ := bind_eq_ok autocreated
      have consistent' := updateMetadataAfterTopicAutocreate_consistent msg.topic _ _ consistent called
      dsimp only at rest
      split at rest
      · cases rest
        exact consistent'
      · -- the shutdown delay expired: the message is discarded
        obtain ⟨tracker, discarded, consistent''⟩ := discard_consistent consistent' rfl
        rw [discarded, ok_bind] at rest
        cases rest
        exact consistent''

/-- The checks of a message of a known topic never fault and keep the
counts exact; they change only the tracker and the rate limiter. -/
theorem validateFoundMsg_consistent {router : TRouterThread} {arrival : TArrival}
    {outside : List (TMsg × TMsgState)} (topicIndex : Nat)
    (consistent : Consistent config router ((arrival.msg, .new) :: outside)) :
    ∃ validation tracker limiter, router.validateFoundMsg arrival topicIndex =
        .ok (validation, { router with msgStateTracker := tracker, msgRateLimiter := limiter }) ∧
      validation ≠ .shutdown ∧
      Consistent config { router with msgStateTracker := tracker, msgRateLimiter := limiter }
        (fresh (validation.survivor arrival.msg) ++ outside) := by
  -- every discard below is of the new message, with or without the limiter's update
  have discarded (limiter : TMsgRateLimiter) :
      ∃ tracker, ({ router with msgRateLimiter := limiter } : TRouterThread).discardNewMsg arrival.msg =
          .ok (.discarded, { router with msgStateTracker := tracker, msgRateLimiter := limiter }) ∧
        Consistent config { router with msgStateTracker := tracker, msgRateLimiter := limiter } outside :=
    discardNewMsg_consistent (consistent.of_eq rfl rfl)
  unfold validateFoundMsg
  split_ifs with tooLong noPartitions
  · obtain ⟨tracker, called, consistent'⟩ := discarded router.msgRateLimiter
    exact ⟨.discarded, tracker, router.msgRateLimiter, called, by decide, consistent'⟩
  · obtain ⟨tracker, called, consistent'⟩ := discarded router.msgRateLimiter
    exact ⟨.discarded, tracker, router.msgRateLimiter, called, by decide, consistent'⟩
  · generalize router.msgRateLimiter.wouldExceedLimit arrival.msg.topic arrival.created = answer
    obtain ⟨exceeds, limiter⟩ := answer
    dsimp only
    cases exceeds with
    | true =>
        obtain ⟨tracker, called, consistent'⟩ := discarded limiter
        exact ⟨.discarded, tracker, limiter, called, by decide, consistent'⟩
    | false => exact ⟨.kept, router.msgStateTracker, limiter, rfl, by decide, consistent.of_eq rfl rfl⟩

/-- A validation that returns keeps the counts exact: the message is live
after it only when kept. -/
theorem validateNewMsg_consistent {router router' : TRouterThread} {arrival : TArrival}
    {outside : List (TMsg × TMsgState)} {validation : TValidation}
    (consistent : Consistent config router ((arrival.msg, .new) :: outside))
    (validated : router.validateNewMsg arrival = .ok (validation, router')) :
    Consistent config router' (fresh (validation.survivor arrival.msg) ++ outside) := by
  unfold validateNewMsg at validated
  split at validated
  · -- a known topic: the checks
    obtain ⟨validation', tracker, limiter, checked, -, consistent'⟩ := validateFoundMsg_consistent _ consistent
    rw [checked] at validated
    cases validated
    exact consistent'
  · split at validated
    · -- topic autocreate
      obtain ⟨⟨autocreated, updated⟩, called, rest⟩ := bind_eq_ok validated
      have consistent' := autocreateTopic_consistent consistent called
      dsimp only at rest
      cases autocreated with
      | kept =>
          dsimp only at rest
          split at rest
          · obtain ⟨validation', tracker, limiter, checked, -, consistent''⟩ :=
              validateFoundMsg_consistent _ consistent'
            rw [checked] at rest
            cases rest
            exact consistent''
          · obtain ⟨tracker, discarded, consistent''⟩ := discardNewMsg_consistent consistent'
            rw [discarded] at rest
            cases rest
            exact consistent''
      | discarded =>
          cases rest
          exact consistent'
      | shutdown =>
          cases rest
          exact consistent'
    · -- an unknown topic without autocreate: a bad topic discard
      obtain ⟨tracker, discarded, consistent'⟩ := discardNewMsg_consistent consistent
      rw [discarded] at validated
      cases validated
      exact consistent'

/-- Without a topic autocreate, the validation never faults and never
ends the loop; it changes only the tracker and the rate limiter. -/
theorem validateNewMsg_ok {router : TRouterThread} {arrival : TArrival} {outside : List (TMsg × TMsgState)}
    (consistent : Consistent config router ((arrival.msg, .new) :: outside))
    (noAutocreate : router.topicAutocreate = false ∨ (router.metadata.findTopicIndex arrival.msg.topic).isSome) :
    ∃ validation tracker limiter, router.validateNewMsg arrival =
        .ok (validation, { router with msgStateTracker := tracker, msgRateLimiter := limiter }) ∧
      validation ≠ .shutdown := by
  unfold validateNewMsg
  cases found : router.metadata.findTopicIndex arrival.msg.topic with
  | some topicIndex =>
      obtain ⟨validation, tracker, limiter, checked, running, -⟩ := validateFoundMsg_consistent topicIndex consistent
      exact ⟨validation, tracker, limiter, checked, running⟩
  | none =>
      have off : router.topicAutocreate = false := by simpa [found] using noAutocreate
      obtain ⟨tracker, discarded, -⟩ := discardNewMsg_consistent consistent
      exact ⟨.discarded, tracker, router.msgRateLimiter, by simpa [off] using discarded, by decide⟩

/-- The batching of a kept message never faults: the batches it collects
are of one topic each and their messages are in Batching, a message the
batcher did not take is still in New, and the counts stay exact. -/
theorem batchMsg_consistent {router : TRouterThread} {msg : TMsg} {outside : List (TMsg × TMsgState)}
    (now : TTimestamp) (consistent : Consistent config router ((msg, .new) :: outside)) :
    ∃ ready left batcher tracker, router.batchMsg msg now =
        .ok (ready, left, { router with perTopicBatcher := batcher, msgStateTracker := tracker }) ∧
      Consistent config { router with perTopicBatcher := batcher, msgStateTracker := tracker }
        (batched ready.flatten ++ fresh left.toList ++ outside) ∧
      ∀ batch ∈ ready, batch ≠ [] ∧ ∃ topic, SingleTopic topic batch := by
  have tracked := consistent.reached.1
  have accurate := consistent.accurate
  unfold batchMsg
  by_cases batching : msg.routingType = .anyPartition ∧ router.perTopicBatcher.isEnabled = true
  · -- the batcher is offered the message
    have perm : (batched ((router.perTopicBatcher.addMsg msg now).1.flatten ++
        (router.perTopicBatcher.addMsg msg now).2.1.toList ++ (router.perTopicBatcher.addMsg msg now).2.2.held)).Perm
        (batched (router.perTopicBatcher.held ++ [msg])) := (addMsg_perm tracked msg now).map _
    have returned := addMsg_batches tracked msg now
    have reached : Reached config (router.perTopicBatcher.addMsg msg now).2.2 :=
      consistent.reached.step (.addMsg msg now)
    have left := addMsg_left_cases router.perTopicBatcher msg now
    rw [if_pos batching]
    generalize router.perTopicBatcher.addMsg msg now = added at perm returned reached left ⊢
    obtain ⟨ready, left, batcher⟩ := added
    dsimp only at perm returned reached left ⊢
    rcases left with rfl | rfl
    · -- the batcher took it: it enters Batching
      obtain ⟨tracker, called, exact⟩ := @msgEnter_accurate router.msgStateTracker .batching (msg, .new)
        (batched router.perTopicBatcher.held ++ outside)
        (accurate.perm (List.perm_iff_count.mpr fun x => by
          simp only [List.count_append, List.count_cons, List.count_nil]
          omega)) rfl
      refine ⟨ready, none, batcher, tracker, ?_, ⟨reached, exact.perm (List.perm_iff_count.mpr fun x => ?_)⟩, returned⟩
      · rw [msgEnterBatching, called]
        rfl
      · have counts := perm.count_eq x
        simp only [batched_append, batched_singleton, Option.toList_none, fresh_nil, List.append_nil,
          List.count_append] at counts ⊢
        omega
    · -- the batcher left it with the caller: it stays in New
      refine ⟨ready, some msg, batcher, router.msgStateTracker, rfl,
        ⟨reached, accurate.perm (List.perm_iff_count.mpr fun x => ?_)⟩, returned⟩
      have counts := perm.count_eq x
      simp only [batched_append, batched_singleton, Option.toList_some, fresh_cons, List.count_append,
        List.count_cons, List.count_nil] at counts ⊢
      simp only [fresh, List.map_nil, List.count_nil] at counts ⊢
      omega
  · -- the message stays to be routed
    rw [if_neg batching]
    refine ⟨[], some msg, router.perTopicBatcher, router.msgStateTracker, rfl, ?_, by simp⟩
    have stays : Consistent config router (batched ([] : List (List TMsg)).flatten ++ fresh (some msg).toList ++ outside) := by
      simpa using consistent
    exact stays.of_eq rfl rfl

/-! ### The loop and the handlers -/

/-- A loop of `HandleMsgAvailable` that returns, on messages that arrived in
New, keeps the counts exact: the batches it collects are of one topic each
and their messages are in Batching, and the messages left to route and
those not reached are still in New. -/
theorem batchMsgs_consistent (now : TTimestamp) :
    ∀ {router : TRouterThread} {arrived : List TArrival} {outside : List (TMsg × TMsgState)} {loop : TMsgLoop},
      Consistent config router (fresh (arrived.map TArrival.msg) ++ outside) →
      batchMsgs now router arrived = .ok loop →
      Consistent config loop.router
          (batched loop.readyBatches.flatten ++ fresh loop.remaining ++ fresh (loop.unvalidated.getD []) ++ outside) ∧
        ∀ batch ∈ loop.readyBatches, batch ≠ [] ∧ ∃ topic, SingleTopic topic batch
  | router, [], outside, loop, consistent, run => by
      cases run
      exact ⟨by simpa [batched, fresh] using consistent, by simp⟩
  | router, arrival :: rest, outside, loop, consistent, run => by
      obtain ⟨⟨validation, validated⟩, called, next⟩ := bind_eq_ok run
      have here : Consistent config router ((arrival.msg, .new) :: (fresh (rest.map TArrival.msg) ++ outside)) := by
        simpa using consistent
      have consistent' := validateNewMsg_consistent here called
      dsimp only at next
      cases validation with
      | shutdown =>
          cases next
          simpa [TValidation.survivor, batched] using consistent'
      | discarded => exact batchMsgs_consistent now (by simpa [TValidation.survivor] using consistent') next
      | kept =>
          obtain ⟨ready, left, batcher, tracker, batchedMsg, consistent'', returned⟩ :=
            batchMsg_consistent now (by simpa [TValidation.survivor] using consistent')
          rw [batchedMsg, ok_bind] at next
          obtain ⟨loop', later, done⟩ := bind_eq_ok next
          cases done
          have moved : Consistent config _
              (fresh (rest.map TArrival.msg) ++ (batched ready.flatten ++ fresh left.toList ++ outside)) :=
            consistent''.perm (List.perm_iff_count.mpr fun x => by
              simp only [List.count_append]
              omega)
          obtain ⟨consistentAfter, single⟩ := batchMsgs_consistent now moved later
          refine ⟨consistentAfter.perm (List.perm_iff_count.mpr fun x => ?_), fun batch member => ?_⟩
          · simp only [List.flatten_append, batched_append, fresh_append, List.count_append]
            omega
          · rcases List.mem_append.mp member with here | there
            · exact returned batch here
            · exact single batch there

/-- Without a topic autocreate, the loop of `HandleMsgAvailable` on
messages that arrived in New never faults and runs to the end. -/
theorem batchMsgs_ok (now : TTimestamp) :
    ∀ {router : TRouterThread} {arrived : List TArrival} {outside : List (TMsg × TMsgState)},
      Consistent config router (fresh (arrived.map TArrival.msg) ++ outside) →
      (router.topicAutocreate = false ∨ ∀ arrival ∈ arrived, (router.metadata.findTopicIndex arrival.msg.topic).isSome) →
      ∃ loop, batchMsgs now router arrived = .ok loop ∧ loop.unvalidated = none
  | router, [], outside, _, _ => ⟨_, rfl, rfl⟩
  | router, arrival :: rest, outside, consistent, noAutocreate => by
      have here : Consistent config router ((arrival.msg, .new) :: (fresh (rest.map TArrival.msg) ++ outside)) := by
        simpa using consistent
      obtain ⟨validation, tracker, limiter, validated, running⟩ :=
        validateNewMsg_ok here (noAutocreate.imp id fun known => known arrival (.head _))
      have consistent' := validateNewMsg_consistent here validated
      -- the rest of the list meets the condition after the validation, which kept the metadata
      have later : ∀ router' : TRouterThread, router'.topicAutocreate = router.topicAutocreate →
          router'.metadata = router.metadata → (router'.topicAutocreate = false ∨
            ∀ arrival ∈ rest, (router'.metadata.findTopicIndex arrival.msg.topic).isSome) := by
        intro router' sameAutocreate sameMetadata
        rw [sameAutocreate, sameMetadata]
        exact noAutocreate.imp id fun known arrival member => known arrival (.tail _ member)
      rw [batchMsgs, validated, ok_bind]
      cases validation with
      | shutdown => exact absurd rfl running
      | discarded =>
          exact batchMsgs_ok now (by simpa [TValidation.survivor] using consistent') (later _ rfl rfl)
      | kept =>
          obtain ⟨ready, left, batcher, tracker', batchedMsg, consistent'', -⟩ :=
            batchMsg_consistent now (by simpa [TValidation.survivor] using consistent')
          have moved : Consistent config _
              (fresh (rest.map TArrival.msg) ++ (batched ready.flatten ++ fresh left.toList ++ outside)) :=
            consistent''.perm (List.perm_iff_count.mpr fun x => by
              simp only [List.count_append]
              omega)
          obtain ⟨loop, run, unreached⟩ := batchMsgs_ok now moved (later _ rfl rfl)
          refine ⟨{ loop with readyBatches := ready ++ loop.readyBatches, remaining := left.toList ++ loop.remaining },
            ?_, unreached⟩
          dsimp only
          rw [batchedMsg, ok_bind]
          dsimp only
          rw [run, ok_bind]
          rfl

/-- A loop that ran to the end has its collected batches sent: they enter
SendWait and the counts stay exact. -/
theorem routeAnyPartitionNow_loop {loop : TMsgLoop} {outside : List (TMsg × TMsgState)}
    (consistent : Consistent config loop.router (batched loop.readyBatches.flatten ++ fresh loop.remaining ++ outside))
    (single : ∀ batch ∈ loop.readyBatches, batch ≠ [] ∧ ∃ topic, SingleTopic topic batch) :
    ∃ tracker, loop.router.routeAnyPartitionNow loop.readyBatches = .ok { loop.router with msgStateTracker := tracker } ∧
      Consistent config { loop.router with msgStateTracker := tracker }
        (sent loop.readyBatches.flatten ++ fresh loop.remaining ++ outside) := by
  have reordered : Accurate loop.router.msgStateTracker
      ((batched loop.router.perTopicBatcher.held ++ fresh loop.remaining ++ outside) ++
        batched loop.readyBatches.flatten) :=
    consistent.accurate.perm (List.perm_iff_count.mpr fun x => by
      simp only [List.count_append]
      omega)
  obtain ⟨tracker, routed, exact⟩ :=
    routeAnyPartitionNow_accurate reordered fun batch member => (single batch member).2
  exact ⟨tracker, routed, consistent.reached, exact.perm (List.perm_iff_count.mpr fun x => by
    simp only [List.count_append]
    omega)⟩

/-- `HandleMsgAvailable` that returns, on messages that arrived in New,
keeps the counts exact: the batches it sent are in SendWait and the
messages it leaves to route are in New. -/
theorem handleMsgAvailable_consistent {router router' : TRouterThread} {arrived : List TArrival}
    {outside : List (TMsg × TMsgState)} {now : TTimestamp} {ready : List (List TMsg)} {remaining : List TMsg}
    (consistent : Consistent config router (fresh (arrived.map TArrival.msg) ++ outside))
    (handled : router.handleMsgAvailable arrived now = .ok (router', ready, remaining)) :
    Consistent config router' (sent ready.flatten ++ fresh remaining ++ outside) := by
  obtain ⟨loop, run, finished⟩ := bind_eq_ok handled
  obtain ⟨consistent', single⟩ := batchMsgs_consistent now consistent run
  cases unreached : loop.unvalidated with
  | none =>
      -- the loop ran to the end: the collected batches are sent
      rw [unreached] at consistent' finished
      obtain ⟨tracker, routed, consistent''⟩ :=
        routeAnyPartitionNow_loop (by simpa using consistent') single
      dsimp only at finished
      rw [routed, ok_bind] at finished
      cases finished
      exact consistent''
  | some unvalidated =>
      -- the shutdown branch: the messages still held are discarded
      rw [unreached] at consistent' finished
      dsimp only at finished
      have reordered : Consistent config loop.router
          (fresh unvalidated ++ (fresh loop.remaining ++ batched loop.readyBatches.flatten ++ outside)) :=
        consistent'.perm (List.perm_iff_count.mpr fun x => by
          simp only [Option.getD_some, List.count_append]
          omega)
      obtain ⟨tracker, unreachedDiscarded, consistent''⟩ := discardEach_fresh reordered
      obtain ⟨tracker', remainingDiscarded, consistent'''⟩ := discardEach_fresh
        (show Consistent config _ (fresh loop.remaining ++ (batched loop.readyBatches.flatten ++ outside)) by
          simpa only [List.append_assoc] using consistent'')
      rw [unreachedDiscarded, ok_bind, remainingDiscarded, ok_bind] at finished
      -- a ready batch would have a batched message discarded
      by_cases collected : loop.readyBatches.flatten = []
      · rw [collected] at finished consistent'''
        cases finished
        simpa [batched, sent, fresh] using consistent'''
      · rw [discardEach_batched _ collected] at finished
        cases finished

/-- Without a topic autocreate, `HandleMsgAvailable` on messages that
arrived in New never faults. -/
theorem handleMsgAvailable_ok {router : TRouterThread} {arrived : List TArrival}
    {outside : List (TMsg × TMsgState)} (now : TTimestamp)
    (consistent : Consistent config router (fresh (arrived.map TArrival.msg) ++ outside))
    (noAutocreate : router.topicAutocreate = false ∨
      ∀ arrival ∈ arrived, (router.metadata.findTopicIndex arrival.msg.topic).isSome) :
    ∃ router' ready remaining, router.handleMsgAvailable arrived now = .ok (router', ready, remaining) := by
  obtain ⟨loop, run, unreached⟩ := batchMsgs_ok now consistent noAutocreate
  obtain ⟨consistent', single⟩ := batchMsgs_consistent now consistent run
  rw [unreached] at consistent'
  obtain ⟨tracker, routed, -⟩ := routeAnyPartitionNow_loop (by simpa using consistent') single
  refine ⟨{ loop.router with msgStateTracker := tracker }, loop.readyBatches, loop.remaining, ?_⟩
  rw [handleMsgAvailable, run, ok_bind]
  dsimp only
  rw [unreached]
  dsimp only
  rw [routed, ok_bind]
  rfl

theorem handleBatchExpiry_consistent {router : TRouterThread}
    {outside : List (TMsg × TMsgState)} (now : TTimestamp) (consistent : Consistent config router outside) :
    ∃ router' complete, router.handleBatchExpiry now = .ok (router', complete) ∧
      Consistent config router' (sent complete.flatten ++ outside) := by
  have tracked := consistent.reached.1
  have perm : (batched ((router.perTopicBatcher.getCompleteBatches now).1.flatten ++
      (router.perTopicBatcher.getCompleteBatches now).2.held)).Perm (batched router.perTopicBatcher.held) :=
    (getCompleteBatches_perm tracked now).map _
  have single := getCompleteBatches_batches tracked now
  have reached : Reached config (router.perTopicBatcher.getCompleteBatches now).2 :=
    consistent.reached.step (.getCompleteBatches now)
  unfold handleBatchExpiry
  generalize router.perTopicBatcher.getCompleteBatches now = taken at perm single reached ⊢
  obtain ⟨complete, batcher⟩ := taken
  dsimp only at perm single reached ⊢
  have reordered : Accurate ({ router with perTopicBatcher := batcher } : TRouterThread).msgStateTracker
      ((batched batcher.held ++ outside) ++ batched complete.flatten) :=
    consistent.accurate.perm (List.perm_iff_count.mpr fun x => by
      have counts := perm.count_eq x
      simp only [batched_append, List.count_append] at counts ⊢
      omega)
  obtain ⟨tracker, routed, exact⟩ :=
    routeAnyPartitionNow_accurate reordered fun batch member => (single batch member).2
  refine ⟨{ router with perTopicBatcher := batcher, msgStateTracker := tracker }, complete, ?_,
    ⟨reached, exact.perm (List.perm_iff_count.mpr fun x => by
    simp only [List.count_append]
    omega)⟩⟩
  rw [routed, ok_bind]
  rfl

end Consistent

/-! ### Every run -/

/-- The states the router and the tracker reach from a new router, with
the messages outside the router: the input thread makes messages, which
enter New; the router handles the messages that arrive, the expiry of
batches, and the metadata updates of its main loop after which it keeps
running; and the other threads make any call of allowed transitions on
messages of one topic outside the router. -/
inductive Reachable (config : TPerTopicConfig) : TRouterThread → List (TMsg × TMsgState) → Prop
  | init (metadata : TMetadata) (rateConf : Conf.TTopicRateConf) (topicAutocreate compareMetadataOnRefresh : Bool)
      (singleMsgOverhead messageMaxBytes : Nat) :
      Reachable config
        { perTopicBatcher := TPerTopicBatcher.init (some config), msgStateTracker := {}, metadata,
          msgRateLimiter := TMsgRateLimiter.create rateConf, topicAutocreate, compareMetadataOnRefresh,
          singleMsgOverhead, messageMaxBytes } []
  | msgEnterNew {router : TRouterThread} {outside : List (TMsg × TMsgState)} (msg : TMsg) :
      Reachable config router outside →
      Reachable config { router with msgStateTracker := router.msgStateTracker.msgEnterNew } (outside ++ [(msg, .new)])
  | handleMsgAvailable {router router' : TRouterThread} {outside : List (TMsg × TMsgState)}
      {arrived : List TArrival} {ready : List (List TMsg)} {remaining : List TMsg} {now : TTimestamp} :
      Reachable config router (fresh (arrived.map TArrival.msg) ++ outside) →
      router.handleMsgAvailable arrived now = .ok (router', ready, remaining) →
      Reachable config router' (sent ready.flatten ++ fresh remaining ++ outside)
  | handleBatchExpiry {router router' : TRouterThread} {outside : List (TMsg × TMsgState)}
      {complete : List (List TMsg)} {now : TTimestamp} :
      Reachable config router outside →
      router.handleBatchExpiry now = .ok (router', complete) →
      Reachable config router' (sent complete.flatten ++ outside)
  | handleMetadataUpdate {router router' : TRouterThread} {outside : List (TMsg × TMsgState)}
      {fetched : Option TMetadata} :
      Reachable config router outside →
      router.handleMetadataUpdate fetched = .ok (true, router') →
      Reachable config router' outside
  | otherThread {router : TRouterThread} {rest msgs updated : List (TMsg × TMsgState)} {target : TMsgState}
      {topic : String} {tracker : TMsgStateTracker} :
      Reachable config router (rest ++ msgs) →
      (∀ msg ∈ msgs, msg.1.topic = topic) → (∀ msg ∈ msgs, allowedTransition msg.2 target = true) →
      router.msgStateTracker.msgEnterList target msgs = .ok (tracker, updated) →
      Reachable config { router with msgStateTracker := tracker } (rest ++ updated)
  | perm {router : TRouterThread} {outside outside' : List (TMsg × TMsgState)} :
      Reachable config router outside → outside.Perm outside' → Reachable config router outside'

/-- Over every run, the tracker's counts are those of the live messages:
the batcher's in Batching and the others in the states they reached. -/
theorem reachable_consistent {config : TPerTopicConfig} {router : TRouterThread}
    {outside : List (TMsg × TMsgState)} (reachable : Reachable config router outside) :
    Consistent config router outside := by
  induction reachable with
  | init => exact ⟨⟨Tracked.init _, rfl⟩, by simpa [held, TPerTopicBatcher.init] using accurate_init⟩
  | msgEnterNew msg _ consistent =>
      exact ⟨consistent.reached, by simpa [List.append_assoc] using msgEnterNew_accurate consistent.accurate msg⟩
  | handleMsgAvailable _ handled consistent => exact handleMsgAvailable_consistent consistent handled
  | handleBatchExpiry _ handled consistent =>
      obtain ⟨router', complete, run, consistent'⟩ := handleBatchExpiry_consistent _ consistent
      rw [handled] at run
      cases run
      exact consistent'
  | handleMetadataUpdate _ handled consistent => exact handleMetadataUpdate_consistent consistent handled
  | otherThread _ single allowed called consistent =>
      rename_i router rest msgs updated target topic tracker _
      have reordered : Accurate router.msgStateTracker ((batched router.perTopicBatcher.held ++ rest) ++ msgs) := by
        rw [List.append_assoc]
        exact consistent.accurate
      obtain ⟨tracker', called', exact⟩ := msgEnterList_accurate reordered single allowed
      rw [called] at called'
      cases called'
      exact ⟨consistent.reached, by rw [← List.append_assoc]; exact exact⟩
  | perm _ perm consistent => exact consistent.perm perm

/-- Metadata with the one topic `t`, whose one partition is ok. -/
def metadataOfT : TMetadata :=
  { brokers := [{ id := 1, hostname := "b", port := 9092, inService := true }], inServiceBrokerCount := 1,
    topicBrokerVec := [0], topics := [{ okPartitions := [⟨0, 0, 0⟩], allPartitions := [⟨0, 0, 0⟩] }],
    topicNameToIndex := [("t", 0)] }

/-- An AnyPartition message of topic `t`. -/
def msgOfT : TMsg := { routingType := .anyPartition, timestamp := 0, topic := "t", keyAndValueSize := 1 }

/-- An AnyPartition message of topic `u`, which `metadataOfT` lacks. -/
def msgOfU : TMsg := { routingType := .anyPartition, timestamp := 0, topic := "u", keyAndValueSize := 1 }

/-- A configuration that batches every topic up to ten messages. -/
def batchTenConfig : TPerTopicConfig := { defaultTopic := { msgCount := 10 } }

/-- A configuration that completes a topic's batch with each message. -/
def batchOneConfig : TPerTopicConfig := { defaultTopic := { msgCount := 1 } }

/-- Over every run the tracker's counts are those of the live messages (the
batcher's in Batching, the others in the states they reached); batch expiry
never faults next, and neither does `HandleMsgAvailable` on messages that
arrived in New when topic autocreate is off or every message's topic is in
the metadata. -/
theorem routerThread_counts_exact {config : TPerTopicConfig} {router : TRouterThread}
    {outside : List (TMsg × TMsgState)} (reachable : Reachable config router outside) :
    Accurate router.msgStateTracker (batched router.perTopicBatcher.held ++ outside) ∧
      (∀ now, ∃ router' complete, router.handleBatchExpiry now = .ok (router', complete)) ∧
      ∀ arrived rest now, outside = fresh (arrived.map TArrival.msg) ++ rest →
        (router.topicAutocreate = false ∨
          ∀ arrival ∈ arrived, (router.metadata.findTopicIndex arrival.msg.topic).isSome) →
        ∃ router' ready remaining, router.handleMsgAvailable arrived now = .ok (router', ready, remaining) := by
  have consistent := reachable_consistent reachable
  refine ⟨consistent.accurate, fun now => ?_, fun arrived rest now split noAutocreate => ?_⟩
  · obtain ⟨router', complete, handled, -⟩ := handleBatchExpiry_consistent now consistent
    exact ⟨router', complete, handled⟩
  · rw [split] at consistent
    exact handleMsgAvailable_ok now consistent noAutocreate

theorem routerThread_counts_exact_batchTen :
    ∃ router outside, Reachable batchTenConfig router outside ∧ router.perTopicBatcher.held = [msgOfT] ∧
      outside = fresh [msgOfU] ∧ Accurate router.msgStateTracker (batched [msgOfT] ++ fresh [msgOfU]) ∧
      (∀ now, ∃ router' complete, router.handleBatchExpiry now = .ok (router', complete)) ∧
      ∃ router' ready remaining, router.handleMsgAvailable [⟨msgOfU, 0, .fail⟩] 0 = .ok (router', ready, remaining) := by
  -- `t` is batched, then a message of the unknown topic `u` is made
  have made : Reachable batchTenConfig _ (fresh [msgOfT] ++ []) :=
    (Reachable.init metadataOfT ⟨{}, []⟩ false false 0 1000).msgEnterNew msgOfT
  have handled := made.handleMsgAvailable
    (show TRouterThread.handleMsgAvailable _ [⟨msgOfT, 0, .fail⟩] 0 = .ok (_, _, _) from rfl)
  have unknown : Reachable batchTenConfig _ (fresh [msgOfU] ++ []) := handled.msgEnterNew msgOfU
  have held : (TPerTopicBatcher.addMsg (TPerTopicBatcher.init (some batchTenConfig)) msgOfT 0).2.2.held = [msgOfT] := by
    decide
  obtain ⟨exact, expiry, available⟩ := routerThread_counts_exact unknown
  exact ⟨_, _, unknown, held, rfl, held ▸ exact, expiry, available [⟨msgOfU, 0, .fail⟩] [] 0 rfl (.inl rfl)⟩

/-! ### Calls the tracker asserts against -/

/-- From every reachable state, `HandleMsgAvailable` on messages that
arrived in New fails an assert exactly when its loop does (a metadata
update of a topic autocreate drops a topic with batched messages), or when
its loop ends on a shutdown during a topic autocreate with batches
collected: their messages, still in Batching, are then discarded. -/
theorem handleMsgAvailable_fails_iff {config : TPerTopicConfig} {router : TRouterThread}
    {outside : List (TMsg × TMsgState)} (reachable : Reachable config router outside)
    {arrived : List TArrival} {rest : List (TMsg × TMsgState)}
    (split : outside = fresh (arrived.map TArrival.msg) ++ rest) (now : TTimestamp) :
    router.handleMsgAvailable arrived now = .error .assertionFailure ↔
      router.batchMsgs now arrived = .error .assertionFailure ∨
        ∃ loop, router.batchMsgs now arrived = .ok loop ∧ loop.unvalidated.isSome ∧ loop.readyBatches ≠ [] := by
  have consistent := reachable_consistent reachable
  rw [split] at consistent
  cases run : router.batchMsgs now arrived with
  | error fault =>
      cases fault
      simp [handleMsgAvailable, run]
      rfl
  | ok loop =>
      obtain ⟨consistent', single⟩ := batchMsgs_consistent now consistent run
      simp only [handleMsgAvailable, run, ok_bind, reduceCtorEq, false_or, Except.ok.injEq, exists_eq_left']
      cases unreached : loop.unvalidated with
      | none =>
          -- the loop ran to the end: sending the batches does not fault
          rw [unreached] at consistent'
          obtain ⟨tracker, routed, -⟩ := routeAnyPartitionNow_loop (by simpa using consistent') single
          simp [routed]
      | some unvalidated =>
          -- the shutdown branch: the discards of new messages do not fault
          rw [unreached] at consistent'
          have reordered : Consistent config loop.router
              (fresh unvalidated ++ (fresh loop.remaining ++ batched loop.readyBatches.flatten ++ rest)) :=
            consistent'.perm (List.perm_iff_count.mpr fun x => by
              simp only [Option.getD_some, List.count_append]
              omega)
          obtain ⟨tracker, unreachedDiscarded, consistent''⟩ := discardEach_fresh reordered
          obtain ⟨tracker', remainingDiscarded, -⟩ := discardEach_fresh
            (show Consistent config _ (fresh loop.remaining ++ (batched loop.readyBatches.flatten ++ rest)) by
              simpa only [List.append_assoc] using consistent'')
          simp only [unreachedDiscarded, remainingDiscarded, ok_bind, Option.isSome_some, true_and]
          by_cases collected : loop.readyBatches = []
          · simp [collected, discardEach, Functor.map, Except.map]
          · -- every collected batch is nonempty, so a batched message is discarded
            have nonempty : loop.readyBatches.flatten ≠ [] := by
              obtain ⟨first, others, listed⟩ := List.exists_cons_of_ne_nil collected
              have firstNonempty := (single first (by simp [listed])).1
              rw [listed, List.flatten_cons]
              intro empty
              exact firstNonempty (List.append_eq_nil_iff.mp empty).1
            simp [discardEach_batched _ nonempty, collected]

/-- From every reachable state, new metadata that drops a topic the batcher
holds messages of (the topic is gone, or has no ok partitions left) has
`UpdateBatchStateForNewMetadata` ask the tracker to move those messages
from Batching to Processed, a transition it asserts against. -/
theorem updateBatchStateForNewMetadata_asserts {config : TPerTopicConfig} {router : TRouterThread}
    {outside : List (TMsg × TMsgState)} (reachable : Reachable config router outside)
    {oldOkTopics : List String} {newTopic : String → Option Bool} {msg : TMsg}
    (held : msg ∈ router.perTopicBatcher.held) (listed : msg.topic ∈ oldOkTopics)
    (dropped : newTopic msg.topic = none ∨ newTopic msg.topic = some false) :
    router.updateBatchStateForNewMetadata oldOkTopics newTopic = .error .assertionFailure := by
  have tracked := (reachable_consistent reachable).reached.1
  have taken := mem_deleteTopics newTopic oldOkTopics tracked held listed
  unfold updateBatchStateForNewMetadata
  generalize deleteTopics newTopic oldOkTopics router.perTopicBatcher = split at taken ⊢
  obtain ⟨deleted, unavailable, batcher⟩ := split
  dsimp only at taken ⊢
  rcases dropped with gone | gone
  · -- the deleted topics' list holds the message
    rw [msgEnterProcessedList_batched (taken.1 gone)]
    rfl
  · -- the unavailable topics' list holds it, after the deleted topics' list
    cases deleted with
    | nil =>
        rw [show router.msgStateTracker.msgEnterProcessedList (batched []) = .ok (router.msgStateTracker, []) from rfl,
          ok_bind]
        dsimp only
        rw [msgEnterProcessedList_batched (taken.2 gone)]
        rfl
    | cons first others =>
        rw [msgEnterProcessedList_batched (List.mem_cons_self ..)]
        rfl

theorem updateBatchStateForNewMetadata_asserts_on_deleted_t :
    ∃ router outside, Reachable batchTenConfig router outside ∧ msgOfT ∈ router.perTopicBatcher.held ∧
      router.updateBatchStateForNewMetadata ["t"] (fun _ => none) = .error .assertionFailure := by
  have made : Reachable batchTenConfig _ (fresh [msgOfT] ++ []) :=
    (Reachable.init metadataOfT ⟨{}, []⟩ false false 0 1000).msgEnterNew msgOfT
  have handled := made.handleMsgAvailable
    (show TRouterThread.handleMsgAvailable _ [⟨msgOfT, 0, .fail⟩] 0 = .ok (_, _, _) from rfl)
  refine ⟨_, _, handled, by decide, ?_⟩
  exact @updateBatchStateForNewMetadata_asserts batchTenConfig _ _ handled ["t"] (fun _ => none) msgOfT
    (by decide) (by decide) (.inl rfl)

/-- With topic autocreate on and each message batched at once, a call that
batches `t` and then autocreates `u`, whose first metadata update the
shutdown delay cuts short, fails the assert. -/
theorem handleMsgAvailable_fails_on_shutdown :
    ∃ router outside, Reachable batchOneConfig router outside ∧
      router.handleMsgAvailable [⟨msgOfT, 0, .fail⟩, ⟨msgOfU, 0, .success [none]⟩] 0 = .error .assertionFailure := by
  have made : Reachable batchOneConfig _ (fresh [msgOfT, msgOfU] ++ []) :=
    ((Reachable.init metadataOfT ⟨{}, []⟩ true false 0 1000).msgEnterNew msgOfT).msgEnterNew msgOfU
  refine ⟨_, _, made, (handleMsgAvailable_fails_iff made rfl 0).mpr (.inr ⟨_, rfl, rfl, by decide⟩)⟩

end TRouterThread

end Dory
