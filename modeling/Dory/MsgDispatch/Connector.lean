/-
Module: Dory.MsgDispatch.Connector
Purpose: `TConnector::ProcessSingleProduceResponse` (src/dory/msg_dispatch/
  connector.cc): pop the oldest request waiting for an ACK into a local,
  process the response with a new `TProduceResponseProcessor`, and move the
  processor's lists to the connector's queues: messages without ACKs to
  `NoAckAfterPause` on `PauseAndFinishNow`, messages to resend after a pause
  to `GotAckAfterPause` whenever it pauses, and messages to resend now to the
  front of `RequestFactory`.  A `TBadProduceResponse` is caught and pauses;
  any other exception leaves the function, and the connector thread dies on
  it.  The request is a local, so whatever is still in it on return is
  destroyed.  Only the connector's fields this function uses are modelled.
  When processing returns normally, every message of the request is in
  exactly one of the destinations; when the reader throws a
  `TBadProduceResponse`, the messages still in the request are in none of
  them, and a response shorter than its header loses the whole request.
  Release builds define `NDEBUG`, so the connector's asserts are not checked.
Trusted boundary: none
Main exports: TConnector, TConnector.held, finishResponse,
  processSingleProduceResponse, processSingleProduceResponse_sameMsgs,
  processSingleProduceResponse_loses_rest,
  processSingleProduceResponse_drops_short_response
-/
import Dory.MsgDispatch.ProduceResponseProcessor

namespace Dory.MsgDispatch

open Dory.KafkaProto

/-- The parts of `TConnector` that `ProcessSingleProduceResponse` reads or
changes; `requestFactoryQueue` is the `InputQueue` of its `RequestFactory`. -/
structure TConnector where
  ackWaitQueue : List TProduceRequest := []
  noAckAfterPause : List (List TMsg) := []
  gotAckAfterPause : List (List TMsg) := []
  requestFactoryQueue : List (List TMsg) := []
  pauseInProgress : Bool := false
  ds : TDispatcherSharedState := {}
deriving DecidableEq, Repr

namespace TConnector

/-- Every message the connector accounts for: waiting for an ACK, in its
queues, or released to the shared state. -/
def held (connector : TConnector) : List TMsg :=
  (connector.ackWaitQueue.flatMap fun request => msgsOf request.2) ++
    connector.noAckAfterPause.flatten ++ connector.gotAckAfterPause.flatten ++
    connector.requestFactoryQueue.flatten ++ connector.ds.released

/-- The end of `ProcessSingleProduceResponse`, after its `try` block: on a
pause, push the pause button and take the messages to resend after it; in
every case, `RequestFactory.PutFront` the messages to resend now. -/
def finishResponse (connector : TConnector) (pause : Bool) (processor : TProduceResponseProcessor) :
    TConnector :=
  let connector :=
    if pause then
      { connector with
        ds := connector.ds.pushPauseButton
        gotAckAfterPause := connector.gotAckAfterPause ++ processor.pauseAndResendAckMsgs }
    else connector
  { connector with
    requestFactoryQueue := processor.immediateResendAckMsgs ++ connector.requestFactoryQueue }

/-- `ProcessSingleProduceResponse()` with `response` the ready message of the
stream reader: whether to keep running, or the exception that leaves it. -/
def processSingleProduceResponse (conf : TDispatchConf) (connector : TConnector)
    (response : List UInt8) : Except TProduceResponseError Bool × TConnector :=
  match connector.ackWaitQueue with
  -- excluded by `assert(!AckWaitQueue.empty())`
  | [] => (.ok true, connector)
  | request :: rest =>
      let (result, st) := processResponse conf request response connector.ds
      -- the popped request is a local, and what is left in it is not kept
      let connector := { connector with ackWaitQueue := rest, ds := st.ds }
      match result with
      | .ok .keepRunning => (.ok true, connector.finishResponse false st.processor)
      | .ok .pauseAndDeferFinish =>
          (.ok true, { connector with pauseInProgress := true }.finishResponse true st.processor)
      | .ok .pauseAndFinishNow =>
          (.ok false, { connector with
            noAckAfterPause := connector.noAckAfterPause ++ st.processor.msgsWithoutAcks
            }.finishResponse true st.processor)
      | .error e =>
          if e.isBadProduceResponse then (.ok false, connector.finishResponse true st.processor)
          else (.error e, connector)

/-! ### Where the popped request's messages go -/

section Responses

variable {conf : TDispatchConf} {connector : TConnector} {request : TProduceRequest}
  {rest : List TProduceRequest} {response : List UInt8}

/-- With the request popped, the connector holds the other requests and its
queues, beside what the processing holds. -/
theorem sameMsgs_popped (conf : TDispatchConf) (response : List UInt8)
    (queued : connector.ackWaitQueue = request :: rest) (wf : WellFormed request.2) :
    SameMsgs connector.held
      (((rest.flatMap fun request => msgsOf request.2) ++ connector.noAckAfterPause.flatten ++
          connector.gotAckAfterPause.flatten ++ connector.requestFactoryQueue.flatten) ++
        (processResponse conf request response connector.ds).2.held) := by
  have same := processResponse_sameMsgs conf request response connector.ds wf
  refine (SameMsgs.of_counts fun msg => ?_).trans ((SameMsgs.refl _).append same)
  simp only [held, queued, List.flatMap_cons, List.count_append]
  omega

/-- When processing returns normally, every message of the popped request is
in exactly one place: processed or discarded by the shared state, in
`NoAckAfterPause`, in `GotAckAfterPause`, or back in `RequestFactory`; and
the connector keeps running unless the action is `PauseAndFinishNow`. -/
theorem processSingleProduceResponse_sameMsgs (queued : connector.ackWaitQueue = request :: rest)
    (wf : WellFormed request.2) {action : TAction}
    (returned : (processResponse conf request response connector.ds).1 = .ok action) :
    (processSingleProduceResponse conf connector response).1 = .ok (action != .pauseAndFinishNow) ∧
      SameMsgs connector.held (processSingleProduceResponse conf connector response).2.held := by
  have before := sameMsgs_popped conf response queued wf
  obtain ⟨emptied, withoutAcks, afterPause⟩ := processResponse_leftovers conf returned
  unfold processSingleProduceResponse
  rw [queued]
  dsimp only
  generalize processResponse conf request response connector.ds = outcome
    at returned before emptied withoutAcks afterPause ⊢
  rcases outcome with ⟨result, st⟩
  dsimp only at returned before emptied withoutAcks afterPause ⊢
  subst returned
  simp only [TAckState.held, emptied, msgsOf_nil, List.nil_append] at before
  -- each action sends the processor's lists to their queues
  cases action with
  | keepRunning =>
      refine ⟨rfl, before.trans (SameMsgs.of_counts fun msg => ?_)⟩
      simp only [finishResponse, held, TProduceResponseProcessor.held, withoutAcks (by decide),
        afterPause rfl, Bool.false_eq_true, if_false, List.flatten_nil, List.flatten_append,
        List.count_append, List.count_nil]
      omega
  | pauseAndDeferFinish =>
      refine ⟨rfl, before.trans (SameMsgs.of_counts fun msg => ?_)⟩
      simp only [finishResponse, held, TProduceResponseProcessor.held, withoutAcks (by decide),
        if_true, TDispatcherSharedState.released_pushPauseButton, List.flatten_nil,
        List.flatten_append, List.count_append, List.count_nil]
      omega
  | pauseAndFinishNow =>
      refine ⟨rfl, before.trans (SameMsgs.of_counts fun msg => ?_)⟩
      simp only [finishResponse, held, TProduceResponseProcessor.held, if_true,
        TDispatcherSharedState.released_pushPauseButton, List.flatten_append, List.count_append]
      omega

/-- A response to another request's correlation ID: the request's one message
is rerouted, and the connector stops. -/
theorem processSingleProduceResponse_sameMsgs_of_mismatch :
    (processSingleProduceResponse ⟨fun _ => .ok, 0⟩
        { ackWaitQueue := [(0, [("t", [(0, [⟨.anyPartition, 0, "t", 1, 0⟩])])])] }
        [0, 0, 0, 8, 0, 0, 0, 1, 0, 0, 0, 0]).1 = .ok false ∧
      SameMsgs (held { ackWaitQueue := [(0, [("t", [(0, [⟨.anyPartition, 0, "t", 1, 0⟩])])])] })
        (processSingleProduceResponse ⟨fun _ => .ok, 0⟩
          { ackWaitQueue := [(0, [("t", [(0, [⟨.anyPartition, 0, "t", 1, 0⟩])])])] }
          [0, 0, 0, 8, 0, 0, 0, 1, 0, 0, 0, 0]).2.held := by
  have returned : (processResponse ⟨fun _ => .ok, 0⟩ (0, [("t", [(0, [⟨.anyPartition, 0, "t", 1, 0⟩])])])
      [0, 0, 0, 8, 0, 0, 0, 1, 0, 0, 0, 0]
      ({ ackWaitQueue := [(0, [("t", [(0, [⟨.anyPartition, 0, "t", 1, 0⟩])])])] } : TConnector).ds).1 =
      .ok .pauseAndFinishNow := by
    decide
  have wf : WellFormed [("t", [(0, [(⟨.anyPartition, 0, "t", 1, 0⟩ : TMsg)])])] := ⟨by decide, by decide⟩
  exact processSingleProduceResponse_sameMsgs rfl wf returned

/-- When the reader throws a `TBadProduceResponse`, the connector pauses and
stops, and the messages still in the popped request are in none of the
places it keeps: they are destroyed with the local request. -/
theorem processSingleProduceResponse_loses_rest (queued : connector.ackWaitQueue = request :: rest)
    (wf : WellFormed request.2) {e : TProduceResponseError}
    (thrown : (processResponse conf request response connector.ds).1 = .error e)
    (caught : e.isBadProduceResponse = true) :
    (processSingleProduceResponse conf connector response).1 = .ok false ∧
      SameMsgs connector.held ((processSingleProduceResponse conf connector response).2.held ++
        msgsOf (processResponse conf request response connector.ds).2.allTopics) := by
  have before := sameMsgs_popped conf response queued wf
  have withoutAcks := processResponse_msgsWithoutAcks_of_error conf thrown
  unfold processSingleProduceResponse
  rw [queued]
  dsimp only
  generalize processResponse conf request response connector.ds = outcome
    at thrown before withoutAcks ⊢
  rcases outcome with ⟨result, st⟩
  dsimp only at thrown before withoutAcks ⊢
  subst thrown
  dsimp only
  rw [if_pos caught]
  refine ⟨rfl, before.trans (SameMsgs.of_counts fun msg => ?_)⟩
  simp only [TAckState.held, finishResponse, held, TProduceResponseProcessor.held, withoutAcks,
    if_true, TDispatcherSharedState.released_pushPauseButton, List.flatten_nil, List.flatten_append,
    List.count_append, List.count_nil]
  omega

/-- A response shorter than its header: the request's one message is in none
of the connector's places. -/
theorem processSingleProduceResponse_loses_rest_of_short :
    (processSingleProduceResponse ⟨fun _ => .ok, 0⟩
        { ackWaitQueue := [(0, [("t", [(0, [⟨.anyPartition, 0, "t", 1, 0⟩])])])] } [0, 0, 0, 0]).1 = .ok false ∧
      SameMsgs (held { ackWaitQueue := [(0, [("t", [(0, [⟨.anyPartition, 0, "t", 1, 0⟩])])])] })
        ((processSingleProduceResponse ⟨fun _ => .ok, 0⟩
            { ackWaitQueue := [(0, [("t", [(0, [⟨.anyPartition, 0, "t", 1, 0⟩])])])] } [0, 0, 0, 0]).2.held ++
          msgsOf (processResponse ⟨fun _ => .ok, 0⟩ (0, [("t", [(0, [⟨.anyPartition, 0, "t", 1, 0⟩])])])
            [0, 0, 0, 0] ({ } : TDispatcherSharedState)).2.allTopics) :=
  processSingleProduceResponse_loses_rest (e := .shortResponse) rfl ⟨by decide, by decide⟩ (by decide)
    (by decide)

/-- A response shorter than its header (`TShortResponse`) drops the whole
popped request: the connector only pauses and stops, and it holds every
message it held before except the request's. -/
theorem processSingleProduceResponse_drops_short_response (conf : TDispatchConf)
    (connector : TConnector) (request : TProduceRequest) (rest : List TProduceRequest)
    (response : List UInt8) (queued : connector.ackWaitQueue = request :: rest)
    (short : response.length < TProduceResponseReader.minSize) :
    processSingleProduceResponse conf connector response =
        (.ok false, { connector with
          ackWaitQueue := rest
          ds := connector.ds.pushPauseButton }) ∧
      connector.held = msgsOf request.2 ++ (processSingleProduceResponse conf connector response).2.held := by
  have dropped : processSingleProduceResponse conf connector response =
      (.ok false, { connector with
        ackWaitQueue := rest
        ds := connector.ds.pushPauseButton }) := by
    simp [processSingleProduceResponse, queued, processResponse,
      TProduceResponseReader.setResponse_of_short short, TProduceResponseError.isBadProduceResponse,
      finishResponse]
  refine ⟨dropped, ?_⟩
  rw [dropped]
  simp [held, queued]

/-- The smallest case: a request with one message, answered by the four
bytes of a response whose size field is zero, and the message is gone. -/
theorem processSingleProduceResponse_drops_one_msg :
    processSingleProduceResponse ⟨fun _ => .ok, 0⟩
        { ackWaitQueue := [(0, [("t", [(0, [⟨.anyPartition, 0, "t", 1, 0⟩])])])] } [0, 0, 0, 0] =
        (.ok false, { ({ ackWaitQueue := [(0, [("t", [(0, [⟨.anyPartition, 0, "t", 1, 0⟩])])])] } : TConnector) with
          ackWaitQueue := []
          ds := ({ } : TDispatcherSharedState).pushPauseButton }) ∧
      held { ackWaitQueue := [(0, [("t", [(0, [⟨.anyPartition, 0, "t", 1, 0⟩])])])] } =
        msgsOf [("t", [(0, [⟨.anyPartition, 0, "t", 1, 0⟩])])] ++
          (processSingleProduceResponse ⟨fun _ => .ok, 0⟩
            { ackWaitQueue := [(0, [("t", [(0, [⟨.anyPartition, 0, "t", 1, 0⟩])])])] } [0, 0, 0, 0]).2.held :=
  processSingleProduceResponse_drops_short_response _ _ (0, [("t", [(0, [⟨.anyPartition, 0, "t", 1, 0⟩])])])
    [] [0, 0, 0, 0] rfl (by decide)

end Responses

end TConnector

end Dory.MsgDispatch
