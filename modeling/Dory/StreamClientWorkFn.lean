/-
Module: Dory.StreamClientWorkFn
Purpose: `TStreamClientWorkFn` (dory/stream_client_work_fn.{h,cc}): the
  worker that serves one UNIX stream or local TCP client.  On each wakeup of
  its socket, `HandleSockReadReady()` calls `Read()` on its
  `TStreamMsgWithSizeReader<int32_t>` and then, in a do-while loop, builds
  each ready message into a message for the output queue with
  `BuildMsgFromDg()` and consumes it.  Invalid data and the end of input end
  the worker, after `HandleDataInvalid()` or `HandleClientClosed()` reports
  what was left to the anomaly tracker.  The loop looks at the state only
  before it consumes a message: when `ConsumeReadyMsg()` finds the next size
  field invalid, the loop ends and returns `true`, nothing is reported, and
  the next wakeup calls `Read()` in `DataInvalid`, which dies
  (`serve_dies_after_consume_invalid`).  Counters and log
  lines are left out; the output queue and the anomaly tracker are the lists
  of what was put and reported.  Release builds define `NDEBUG`, so the
  worker's own asserts are not checked; those of `BuildMsgFromDg` are faults,
  as `Dory.InputDg.Reader` has them.
Trusted boundary: `read()` on the socket; `TGatePutApi::Put()` appends.
Main exports: TStreamClientWorkFn, TStreamClientWorkFn.handleSockReadReady,
  TStreamClientWorkFn.setState, BuildsAll,
  TStreamClientWorkFn.handleReaderState_msgReady
-/
import Dory.Base.StreamReaderRuns
import Dory.InputDg.Reader

namespace Dory

open Base Foundation InputDg Capped

/-- How `HandleSockReadReady()` ends the program: a fault of the reader, of
`BuildMsgFromDg()`, or the `Die()` for a failed read that did not lose the
connection, whose text ends with `strerror()` of the code. -/
inductive TStreamClientFault where
  | reader (fault : TStreamFault)
  | build (fault : TInputDgFault)
  | readFailed (isTcp : Bool) (errno : TErrno)
deriving DecidableEq, Repr

/-- What the worker reports to the anomaly tracker: a discard recorded by
`BuildMsgFromDg()` or `TrackMalformedMsgDiscard()`, or
`TrackStreamClientUncleanDisconnect()` with the data left. -/
inductive TStreamClientAnomaly where
  | discard (discard : TDiscard)
  | uncleanDisconnect (isTcp : Bool) (data : List UInt8)
deriving DecidableEq, Repr

/-- What a `poll()` of `operator()()` wakes for: the client socket, with
what `read()` on it then returns, or the shutdown request. -/
inductive TPollItem where
  | sock (result : TReadResult)
  | shutdownRequest
deriving DecidableEq, Repr

/-- The state of `TStreamClientWorkFn` that `HandleSockReadReady()` reads
and changes, with the pool it allocates from, the messages it put on the
output queue and the anomalies it reported, in order. -/
structure TStreamClientWorkFn where
  isTcp : Bool
  pool : TPool
  streamReader : TStreamMsgReader TStreamMsgWithSizeReaderBase
  outputQueue : List TCreatedMsg
  anomalies : List TStreamClientAnomaly

namespace TStreamClientWorkFn

/-- `HandleDataInvalid()`: the data from the invalid size field on is a
malformed message. -/
def handleDataInvalid (worker : TStreamClientWorkFn) : TStreamClientWorkFn :=
  { worker with anomalies := worker.anomalies ++ [.discard (.malformedMsg worker.streamReader.buf.contents)] }

/-- `HandleClientClosed()`: a client that closed with part of a message
written disconnected uncleanly. -/
def handleClientClosed (worker : TStreamClientWorkFn) : TStreamClientWorkFn :=
  if worker.streamReader.buf.dataSize = 0 then worker
  else { worker with
    anomalies := worker.anomalies ++ [.uncleanDisconnect worker.isTcp worker.streamReader.buf.contents] }

/-- The `MsgReady` case of the loop: the ready message built into a message,
put on the output queue when there is one, and consumed. -/
def forwardReadyMsg (worker : TStreamClientWorkFn) : Except TStreamClientFault TStreamClientWorkFn := do
  let dg ← worker.streamReader.getReadyMsg.mapError .reader
  let built ← (buildMsgFromDg dg worker.pool).mapError .build
  let streamReader ←
    (TStreamMsgReader.consumeReadyMsg TStreamMsgWithSizeReaderBase.hooks worker.streamReader).mapError .reader
  pure { worker with
    pool := built.pool
    outputQueue := worker.outputQueue ++ built.msg.toList
    anomalies := worker.anomalies ++ built.discards.map .discard
    streamReader }

/-- The do-while loop of `HandleSockReadReady()`, from the state `Read()`
returned.  It goes round again only while a message is ready after a
consume; `fuel` bounds the rounds, one for each message in the data. -/
def handleReaderState : Nat → TStreamState → TStreamClientWorkFn → Except TStreamClientFault (Bool × TStreamClientWorkFn)
  | _, .readNeeded, worker => .ok (true, worker)
  | _, .dataInvalid, worker => .ok (false, worker.handleDataInvalid)
  | _, .atEnd, worker => .ok (false, worker.handleClientClosed)
  | 0, .msgReady, worker => .ok (true, worker)
  | fuel + 1, .msgReady, worker => do
      let worker ← worker.forwardReadyMsg
      -- the state after the consume is not looked at unless a message is ready
      if worker.streamReader.state = .msgReady then handleReaderState fuel .msgReady worker
      else .ok (true, worker)

/-- `HandleSockReadReady()`, with what `read()` returned on the socket:
`false` when the worker is done with its client.  A lost connection ends
the worker; another failure of `read()` ends the program.  Every message in
the data takes a byte at least, so the data's size bounds the rounds. -/
def handleSockReadReady (result : TReadResult) (worker : TStreamClientWorkFn) :
    Except TStreamClientFault (Bool × TStreamClientWorkFn) :=
  match TStreamMsgReader.read TStreamMsgWithSizeReaderBase.hooks result worker.streamReader with
  | .error (.systemError errno) =>
      if errno.lostTcpConnection then .ok (false, worker) else .error (.readFailed worker.isTcp errno)
  | .error fault => .error (.reader fault)
  | .ok streamReader =>
      handleReaderState (streamReader.buf.contents.length + 1) streamReader.state { worker with streamReader }

/-- The loop of `operator()()`, one wakeup of its `poll()` at a time: it
goes on while no shutdown is requested and `HandleSockReadReady()` returns
`true`.  The result says whether the worker still serves its client when
the wakeups run out. -/
def serve : List TPollItem → TStreamClientWorkFn → Except TStreamClientFault (Bool × TStreamClientWorkFn)
  | [], worker => .ok (true, worker)
  | .shutdownRequest :: _, worker => .ok (false, worker)
  | .sock result :: items, worker => do
      let (more, worker) ← worker.handleSockReadReady result
      if more then serve items worker else .ok (false, worker)

/-- The constructor `TStreamClientWorkFn(nullptr)`, with the pool it will
allocate from: a UNIX stream worker whose reader is
`TStreamMsgWithSizeReader<int32_t>{true, true, 0, 64 * 1024}` on no
descriptor, the largest body 0 standing until `SetState()`. -/
def create (pool : TPool) : Except TStreamFault TStreamClientWorkFn := do
  let streamReader ← TStreamMsgWithSizeReader.create .int32 (-1) true true 0 (64 * 1024)
  pure { isTcp := false, pool, streamReader, outputQueue := [], anomalies := [] }

/-- `SetState(...)`: the worker takes a client socket and the pool to
allocate from; its reader is reset to the socket and takes the largest body
the configuration allows. -/
def setState (isTcp : Bool) (maxStreamMsgSize : Nat) (pool : TPool) (clientSocket : Int)
    (worker : TStreamClientWorkFn) : TStreamClientWorkFn :=
  { worker with
    isTcp
    pool
    streamReader := (worker.streamReader.reset TStreamMsgWithSizeReaderBase.hooks clientSocket).setMaxMsgBodySize
      maxStreamMsgSize }

end TStreamClientWorkFn

/-! ### Building the messages of a stream -/

/-- `BuildMsgFromDg()` does not fault on a datagram, whatever the pool. -/
def Builds (dg : List UInt8) : Prop :=
  ∀ pool : TPool, ∃ result, buildMsgFromDg dg pool = .ok result

/-- The encoding of contents that fit, with a key, is built into a message
or, when the pool has no room, discarded. -/
theorem builds_of_encode {contents : TDgContents} (fits : contents.Fits) (keyed : contents.key ≠ []) :
    Builds contents.encode := by
  intro pool
  rw [buildMsgFromDg_encode fits pool]
  rcases tryCreateMsg_cases contents.routing.routingType contents.routing.msgPartitionKey contents.timestamp
      contents.key contents.value pool fits.topicNonempty with ⟨rest, blob, -, made⟩ | discarded | ⟨-, empty⟩
  · exact ⟨_, made⟩
  · exact ⟨_, discarded⟩
  · exact absurd empty keyed

/-- The datagram of an AnyPartition message of topic `t`, key `[1]` and
value `[2]`. -/
def dgOfT : List UInt8 := (⟨.anyPartition, 0, [116], [1], [2]⟩ : TDgContents).encode

/-- Datagrams built into messages one after another, each from the pool
the one before left: the messages made, the discards recorded and the pool
at the end. -/
inductive BuildsAll : List (List UInt8) → TPool → List TCreatedMsg → List TDiscard → TPool → Prop
  | nil (pool : TPool) : BuildsAll [] pool [] [] pool
  | cons {dg : List UInt8} {dgs : List (List UInt8)} {pool last : TPool} {result : TBuildResult}
      {msgs : List TCreatedMsg} {discards : List TDiscard}
      (built : buildMsgFromDg dg pool = .ok result) (rest : BuildsAll dgs result.pool msgs discards last) :
      BuildsAll (dg :: dgs) pool (result.msg.toList ++ msgs) (result.discards ++ discards) last

/-- Datagrams built in two runs, the second from the pool the first left,
are built in one. -/
theorem BuildsAll.append {dgs dgs' : List (List UInt8)} {pool middle last : TPool} {msgs msgs' : List TCreatedMsg}
    {discards discards' : List TDiscard} (first : BuildsAll dgs pool msgs discards middle)
    (second : BuildsAll dgs' middle msgs' discards' last) :
    BuildsAll (dgs ++ dgs') pool (msgs ++ msgs') (discards ++ discards') last := by
  induction first with
  | nil => exact second
  | cons built _ ih =>
      rw [List.cons_append, List.append_assoc, List.append_assoc]
      exact .cons built (ih second)

/-- One datagram built into a message: that message is all the run makes. -/
theorem BuildsAll.singleton {dg : List UInt8} {pool rest last : TPool} {msgs : List TCreatedMsg}
    {discards : List TDiscard} {msg : TCreatedMsg} (all : BuildsAll [dg] pool msgs discards last)
    (built : buildMsgFromDg dg pool = .ok { msg := some msg, pool := rest, discards := [] }) :
    msgs = [msg] ∧ discards = [] ∧ last = rest := by
  cases all with
  | cons built' tail =>
      rw [built] at built'
      cases built'
      cases tail
      exact ⟨rfl, rfl, rfl⟩

/-- A `read()` after which a worker goes on while its client writes: some
bytes, no more than the reader asked for, or a failure that is retried. -/
def Base.TReadResult.Continues (readSize : Nat) : TReadResult → Prop
  | .bytes data => data ≠ [] ∧ data.length ≤ readSize
  | .failed errno => errno.isRetry = true

instance (readSize : Nat) : DecidablePred (Base.TReadResult.Continues readSize)
  | .bytes data => inferInstanceAs (Decidable (data ≠ [] ∧ data.length ≤ readSize))
  | .failed errno => inferInstanceAs (Decidable (errno.isRetry = true))

namespace TStreamClientWorkFn

@[simp] theorem handleClientClosed_pool (worker : TStreamClientWorkFn) : worker.handleClientClosed.pool = worker.pool := by
  unfold handleClientClosed
  split <;> rfl

@[simp] theorem handleClientClosed_outputQueue (worker : TStreamClientWorkFn) :
    worker.handleClientClosed.outputQueue = worker.outputQueue := by
  unfold handleClientClosed
  split <;> rfl

/-- `HandleClientClosed()` reports the data left, if there is some. -/
theorem handleClientClosed_anomalies {worker : TStreamClientWorkFn} (valid : worker.streamReader.buf.Valid) :
    worker.handleClientClosed.anomalies = worker.anomalies ++
      if worker.streamReader.buf.contents = [] then []
      else [.uncleanDisconnect worker.isTcp worker.streamReader.buf.contents] := by
  have empty : worker.streamReader.buf.dataSize = 0 ↔ worker.streamReader.buf.contents = [] := by
    rw [TBuf.dataSize, ← TBuf.length_contents valid, List.length_eq_zero_iff]
  unfold handleClientClosed
  by_cases left : worker.streamReader.buf.contents = []
  · rw [if_pos (empty.mpr left), if_pos left, List.append_nil]
  · rw [if_neg (mt empty.mp left), if_neg left]

/-- A worker as constructed has a reader with the invariant for its
format, reading 64 KiB at a time, in any storage allowance. -/
theorem create_inv (pool : TPool) (cap : Nat) :
    ∃ worker, create pool = .ok worker ∧
      worker.streamReader.Inv ⟨.int32, true, true, 0, by decide⟩ (64 * 1024) cap := by
  obtain ⟨reader, created, inv, -⟩ :=
    TStreamMsgReader.inv_create ⟨.int32, true, true, 0, by decide⟩ (-1) (64 * 1024) cap
  have made : TStreamMsgWithSizeReader.create .int32 (-1) true true 0 (64 * 1024) = .ok reader := created
  refine ⟨{ isTcp := false, pool, streamReader := reader, outputQueue := [], anomalies := [] }, ?_, inv⟩
  rw [create, made]
  rfl

/-- The wakeups after a run that leaves the worker serving its client are
served by the worker that run left. -/
theorem serve_append {items : List TPollItem} {worker after : TStreamClientWorkFn}
    (served : serve items worker = .ok (true, after)) (more : List TPollItem) :
    serve (items ++ more) worker = serve more after := by
  induction items generalizing worker with
  | nil =>
      cases served
      rfl
  | cons item items ih =>
      cases item with
      | shutdownRequest => cases served
      | sock result =>
          obtain ⟨⟨going, next⟩, handled, rest⟩ := Foundation.bind_eq_ok served
          cases going with
          | false => cases rest
          | true =>
              simp only [List.cons_append, serve, handled, Foundation.ok_bind, if_true]
              exact ih rest

section Loop

variable {format : TFrameFormat} {readSize cap : Nat} {worker : TStreamClientWorkFn}

/-- The `MsgReady` case on a reader with the invariant: the frame at the
front is built from the pool and consumed. -/
theorem forwardReadyMsg_eq (inv : worker.streamReader.Inv format readSize cap) {msg rest : List UInt8}
    (found : format.split worker.streamReader.buf.contents = .frame msg rest) {result : TBuildResult}
    (built : buildMsgFromDg msg worker.pool = .ok result) :
    ∃ next, worker.forwardReadyMsg = .ok next ∧ next.pool = result.pool ∧
      next.outputQueue = worker.outputQueue ++ result.msg.toList ∧
      next.anomalies = worker.anomalies ++ result.discards.map .discard ∧ next.isTcp = worker.isTcp ∧
      next.streamReader.Inv format readSize cap ∧ next.streamReader.view = ⟨rest, worker.streamReader.endOfInput⟩ := by
  obtain ⟨taken, after, consumed, inv', viewed⟩ := inv.consume found
  refine ⟨{ worker with
    pool := result.pool
    outputQueue := worker.outputQueue ++ result.msg.toList
    anomalies := worker.anomalies ++ result.discards.map .discard
    streamReader := after }, ?_, rfl, rfl, rfl, rfl, inv', viewed⟩
  simp only [forwardReadyMsg, taken, consumed, Except.mapError, Foundation.ok_bind, built]
  rfl

/-- The loop on a reader with a ready message: every frame of the data is
built into the output queue in order, until the data holds no whole frame;
the rest of the data decodes as the data did after its frames, and the loop
returns `true`, whatever the state the last consume left.  By induction on
the fuel, one frame a round. -/
theorem handleReaderState_msgReady (inv : worker.streamReader.Inv format readSize cap)
    (ready : worker.streamReader.state = .msgReady) {frames : List (List UInt8)}
    {stop : TDecodeEnd UInt8 TDataInvalidReason}
    (decoded : decode format.split worker.streamReader.buf.contents = (frames, stop))
    (builds : ∀ dg ∈ frames, Builds dg) {fuel : Nat} (enough : frames.length ≤ fuel) :
    ∃ after msgs discards, handleReaderState fuel .msgReady worker = .ok (true, after) ∧
      BuildsAll frames worker.pool msgs discards after.pool ∧
      after.outputQueue = worker.outputQueue ++ msgs ∧
      after.anomalies = worker.anomalies ++ discards.map .discard ∧ after.isTcp = worker.isTcp ∧
      after.streamReader.Inv format readSize cap ∧
      after.streamReader.endOfInput = worker.streamReader.endOfInput ∧
      decode format.split after.streamReader.buf.contents = ([], stop) := by
  induction fuel generalizing worker frames with
  | zero =>
      obtain ⟨msg, rest, found⟩ := inv.frame_of_ready ready
      rw [decode_frame format.split_prefixStable found] at decoded
      cases decoded
      simp at enough
  | succ fuel ih =>
      obtain ⟨msg, rest, found⟩ := inv.frame_of_ready ready
      rw [decode_frame format.split_prefixStable found] at decoded
      cases decoded
      obtain ⟨result, built⟩ := builds msg List.mem_cons_self worker.pool
      obtain ⟨next, forwarded, pool, queue, reported, tcp, inv', viewed⟩ := forwardReadyMsg_eq inv found built
      have contents : next.streamReader.buf.contents = rest := congrArg TFramedState.pending viewed
      have ended : next.streamReader.endOfInput = worker.streamReader.endOfInput :=
        congrArg TFramedState.ended viewed
      simp only [handleReaderState, forwarded, Foundation.ok_bind]
      by_cases again : next.streamReader.state = .msgReady
      · -- more frames: the rest of the loop builds them
        rw [if_pos again]
        obtain ⟨after, msgs, discards, looped, buildsRest, queue', reported', tcp', invAfter, endedAfter,
            decodedAfter⟩ :=
          ih inv' again (by rw [contents]) (fun dg member => builds dg (List.mem_cons_of_mem _ member))
            (by simp only [List.length_cons] at enough; omega)
        refine ⟨after, result.msg.toList ++ msgs, result.discards ++ discards, looped,
          .cons built (pool ▸ buildsRest), ?_, ?_, by rw [tcp', tcp], invAfter, by rw [endedAfter, ended],
          decodedAfter⟩
        · rw [queue', queue, List.append_assoc]
        · rw [reported', reported, List.map_append, List.append_assoc]
      · -- no frame left: the data after this one decodes to none
        rw [if_neg again]
        have none : (decode format.split rest).1 = [] := by
          by_contra framed
          exact again (inv'.ready_of_decode (by rw [contents]; exact framed))
        have restDecoded : decode format.split rest = ([], (decode format.split rest).2) := by rw [← none]
        refine ⟨next, result.msg.toList, result.discards, rfl, ?_, queue, reported, tcp, inv', ended, ?_⟩
        · have single := BuildsAll.cons built (BuildsAll.nil result.pool)
          rw [pool]
          simpa only [List.append_nil, none] using single
        · rw [contents]
          simpa only [none] using restDecoded

end Loop

/-! ### Wakeups of the socket -/

section Wakeups

variable {format : TFrameFormat} {readSize cap : Nat} {worker : TStreamClientWorkFn}
variable (positive : 0 < readSize) (roomy : format.sizeFieldType.size + format.maxMsgBodySize + readSize ≤ cap + 1)

include positive roomy

/-- Bytes, when the reader needs data, after which the data holds whole
frames: every frame is built into the output queue in order, and
`HandleSockReadReady()` returns `true` with a reader whose data decodes to
no frame and as the data read did after its frames. -/
theorem handleSockReadReady_of_frames (inv : worker.streamReader.Inv format readSize cap)
    (needed : worker.streamReader.state = .readNeeded) {data : List UInt8} (fits : data.length ≤ readSize)
    {frames : List (List UInt8)} {stop : TDecodeEnd UInt8 TDataInvalidReason}
    (decoded : decode format.split (worker.streamReader.buf.contents ++ data) = (frames, stop))
    (framed : frames ≠ []) (builds : ∀ dg ∈ frames, Builds dg) :
    ∃ after msgs discards, handleSockReadReady (.bytes data) worker = .ok (true, after) ∧
      BuildsAll frames worker.pool msgs discards after.pool ∧
      after.outputQueue = worker.outputQueue ++ msgs ∧
      after.anomalies = worker.anomalies ++ discards.map .discard ∧ after.isTcp = worker.isTcp ∧
      after.streamReader.Inv format readSize cap ∧ after.streamReader.endOfInput = false ∧
      decode format.split after.streamReader.buf.contents = ([], stop) := by
  -- an empty read would leave data without a whole frame
  have nonempty : data ≠ [] := by
    rintro rfl
    rw [List.append_nil, inv.decode_of_readNeeded needed] at decoded
    cases decoded
    exact framed rfl
  obtain ⟨read, readOk, inv', contents, ended⟩ := inv.read_some positive roomy needed nonempty fits
  have ready : read.state = .msgReady := inv'.ready_of_decode (by rw [contents, decoded]; exact framed)
  have enough : frames.length ≤ read.buf.contents.length + 1 := by
    have shorter := length_decode_le format.split_prefixStable read.buf.contents
    rw [contents, decoded] at shorter
    rw [contents]
    exact Nat.le_succ_of_le shorter
  obtain ⟨after, msgs, discards, looped, built, queue, reported, tcp, invAfter, endedAfter, decodedAfter⟩ :=
    @handleReaderState_msgReady format readSize cap { worker with streamReader := read } inv' ready _ _
      (by rw [contents, decoded]) builds _ enough
  refine ⟨after, msgs, discards, ?_, built, queue, reported, tcp, invAfter, by rw [endedAfter, ended], decodedAfter⟩
  simp only [handleSockReadReady, readOk, ready]
  exact looped

/-- One wakeup while the client writes, on a reader that needs data: the
frames that the bytes read complete are built into the output queue in
order, and the worker goes on, its reader needing data again and holding
what is left of the stream. -/
theorem handleSockReadReady_continues (inv : worker.streamReader.Inv format readSize cap)
    (needed : worker.streamReader.state = .readNeeded) {result : TReadResult} (continues : result.Continues readSize)
    {frames : List (List UInt8)} {leftover : List UInt8}
    (decoded : decode format.split (worker.streamReader.buf.contents ++ (TStreamEvent.read result).bytesRead) =
      (frames, .pending leftover))
    (builds : ∀ dg ∈ frames, Builds dg) :
    ∃ after msgs discards, handleSockReadReady result worker = .ok (true, after) ∧
      BuildsAll frames worker.pool msgs discards after.pool ∧
      after.outputQueue = worker.outputQueue ++ msgs ∧
      after.anomalies = worker.anomalies ++ discards.map .discard ∧ after.isTcp = worker.isTcp ∧
      after.streamReader.Inv format readSize cap ∧ after.streamReader.state = .readNeeded ∧
      after.streamReader.buf.contents = leftover := by
  cases result with
  | failed errno =>
      -- a retried failure reads nothing: no frame, and the data stays
      simp only [TStreamEvent.bytesRead, List.append_nil, inv.decode_of_readNeeded needed] at decoded
      cases decoded
      obtain ⟨read, readOk, inv', contents, state⟩ := inv.read_retry_state positive roomy needed continues
      refine ⟨{ worker with streamReader := read }, [], [], ?_, .nil _, (List.append_nil _).symm,
        by rw [List.map_nil, List.append_nil], rfl, inv', state, contents⟩
      simp only [handleSockReadReady, readOk, state, handleReaderState]
  | bytes data =>
      obtain ⟨nonempty, fits⟩ := continues
      simp only [TStreamEvent.bytesRead] at decoded
      by_cases framed : frames = []
      · -- no frame completed: the reader needs data again
        subst framed
        obtain ⟨read, readOk, inv', contents, ended⟩ := inv.read_some positive roomy needed nonempty fits
        rw [← contents] at decoded
        obtain ⟨incomplete, rfl⟩ := incomplete_of_decode format.split_prefixStable decoded
        have state : read.state = .readNeeded := by
          rw [inv'.state, incomplete, ended]
          rfl
        refine ⟨{ worker with streamReader := read }, [], [], ?_, .nil _, (List.append_nil _).symm,
          by rw [List.map_nil, List.append_nil], rfl, inv', state, rfl⟩
        simp only [handleSockReadReady, readOk, state, handleReaderState]
      · obtain ⟨after, msgs, discards, handled, built, queue, reported, tcp, invAfter, ended, decodedAfter⟩ :=
          handleSockReadReady_of_frames positive roomy inv needed fits decoded framed builds
        obtain ⟨incomplete, rfl⟩ := incomplete_of_decode format.split_prefixStable decodedAfter
        refine ⟨after, msgs, discards, handled, built, queue, reported, tcp, invAfter, ?_, rfl⟩
        rw [invAfter.state, incomplete, ended]
        rfl

/-- The end of input, on a reader that needs data: the worker is done with
its client, and reports an unclean disconnect when the client left part of
a message. -/
theorem handleSockReadReady_of_end (inv : worker.streamReader.Inv format readSize cap)
    (needed : worker.streamReader.state = .readNeeded) :
    ∃ after, handleSockReadReady (.bytes []) worker = .ok (false, after) ∧ after.pool = worker.pool ∧
      after.outputQueue = worker.outputQueue ∧
      after.anomalies = worker.anomalies ++
        if worker.streamReader.buf.contents = [] then []
        else [.uncleanDisconnect worker.isTcp worker.streamReader.buf.contents] := by
  obtain ⟨read, readOk, inv', contents, atEnd⟩ := inv.read_end positive roomy needed
  refine ⟨handleClientClosed { worker with streamReader := read }, ?_, handleClientClosed_pool _,
    handleClientClosed_outputQueue _, ?_⟩
  · simp only [handleSockReadReady, readOk, atEnd, handleReaderState]
  · rw [handleClientClosed_anomalies inv'.valid, contents]

/-- Bytes, when the reader needs data, after which the data starts with a
size field no message can have: the worker is done with its client, and
reports all of its data as a malformed message. -/
theorem handleSockReadReady_of_invalid (inv : worker.streamReader.Inv format readSize cap)
    (needed : worker.streamReader.state = .readNeeded) {data : List UInt8} (fits : data.length ≤ readSize)
    {reason : TDataInvalidReason} {rest : List UInt8}
    (decoded : decode format.split (worker.streamReader.buf.contents ++ data) = ([], .invalid reason rest)) :
    ∃ after, handleSockReadReady (.bytes data) worker = .ok (false, after) ∧ after.pool = worker.pool ∧
      after.outputQueue = worker.outputQueue ∧
      after.anomalies = worker.anomalies ++ [.discard (.malformedMsg (worker.streamReader.buf.contents ++ data))] := by
  -- an empty read leaves the data that needed more
  have nonempty : data ≠ [] := by
    rintro rfl
    rw [List.append_nil, inv.decode_of_readNeeded needed] at decoded
    cases decoded
  obtain ⟨read, readOk, inv', contents, -⟩ := inv.read_some positive roomy needed nonempty fits
  have invalid : read.state = .dataInvalid := inv'.dataInvalid_of_decode (by rw [contents]; exact decoded)
  refine ⟨handleDataInvalid { worker with streamReader := read }, ?_, rfl, rfl, ?_⟩
  · simp only [handleSockReadReady, readOk, invalid, handleReaderState]
  · simp only [handleDataInvalid, contents]

omit positive roomy in
/-- A worker's first read from its client brings a size field of 2, which
cannot count itself. -/
theorem handleSockReadReady_of_invalid_short_size :
    decode (TFrameFormat.withMaxMsgBodySize ⟨.int32, true, true, 0, by decide⟩ 100 (by decide)).split
        [0, 0, 0, 2, 7] = ([], .invalid .invalidSizeField [0, 0, 0, 2, 7]) ∧
      ∃ worker, create (TPool.create 24 4) = .ok worker ∧ ∃ after,
        handleSockReadReady (.bytes [0, 0, 0, 2, 7]) (worker.setState false 100 (TPool.create 24 4) 5) =
          .ok (false, after) ∧
        after.pool = TPool.create 24 4 ∧ after.outputQueue = worker.outputQueue ∧
        after.anomalies = worker.anomalies ++ [.discard (.malformedMsg ([] ++ [0, 0, 0, 2, 7]))] := by
  have decoded : decode (TFrameFormat.withMaxMsgBodySize ⟨.int32, true, true, 0, by decide⟩ 100 (by decide)).split
      [0, 0, 0, 2, 7] = ([], .invalid .invalidSizeField [0, 0, 0, 2, 7]) := by decide
  obtain ⟨worker, created, inv⟩ := create_inv (TPool.create 24 4) (4 + 100 + 64 * 1024 - 1)
  obtain ⟨inv', needed, emptied⟩ : (worker.setState false 100 (TPool.create 24 4) 5).streamReader.Inv
        (TFrameFormat.withMaxMsgBodySize ⟨.int32, true, true, 0, by decide⟩ 100 (by decide)) (64 * 1024)
        (4 + 100 + 64 * 1024 - 1) ∧
      (worker.setState false 100 (TPool.create 24 4) 5).streamReader.state = .readNeeded ∧
      (worker.setState false 100 (TPool.create 24 4) 5).streamReader.buf.contents = [] :=
    inv.reset_setMaxMsgBodySize (by decide) 100 (by decide)
  have found := handleSockReadReady_of_invalid (by decide) (by decide) inv' needed
    (show ([0, 0, 0, 2, 7] : List UInt8).length ≤ 64 * 1024 by decide) (by rw [emptied, List.nil_append]; exact decoded)
  rw [emptied] at found
  exact ⟨decoded, worker, created, found⟩

/-- Bytes, when the reader needs data, after which the data holds whole
frames and then a size field no message can have.  The loop builds the
frames, and the consume of the last leaves the reader with invalid data,
which the loop does not look at: `HandleSockReadReady()` returns `true`,
the invalid data is not reported, and the next wakeup of the socket,
whatever `read()` would return, ends the program. -/
theorem serve_dies_after_consume_invalid (inv : worker.streamReader.Inv format readSize cap)
    (needed : worker.streamReader.state = .readNeeded) {data : List UInt8} (fits : data.length ≤ readSize)
    {frames : List (List UInt8)} {reason : TDataInvalidReason} {rest : List UInt8}
    (decoded : decode format.split (worker.streamReader.buf.contents ++ data) = (frames, .invalid reason rest))
    (framed : frames ≠ []) (builds : ∀ dg ∈ frames, Builds dg) :
    ∃ after msgs discards, handleSockReadReady (.bytes data) worker = .ok (true, after) ∧
      BuildsAll frames worker.pool msgs discards after.pool ∧
      after.outputQueue = worker.outputQueue ++ msgs ∧
      after.anomalies = worker.anomalies ++ discards.map .discard ∧
      ∀ result items, serve (.sock result :: items) after =
        .error (.reader (.die "Invalid call to TStreamMsgReader::Read()")) := by
  obtain ⟨after, msgs, discards, handled, built, queue, reported, -, invAfter, -, decodedAfter⟩ :=
    handleSockReadReady_of_frames positive roomy inv needed fits decoded framed builds
  have invalid : after.streamReader.state = .dataInvalid := invAfter.dataInvalid_of_decode decodedAfter
  refine ⟨after, msgs, discards, handled, built, queue, reported, fun result items => ?_⟩
  have dies : TStreamMsgReader.read TStreamMsgWithSizeReaderBase.hooks result after.streamReader =
      .error (.die "Invalid call to TStreamMsgReader::Read()") :=
    TStreamMsgReader.read_of_not_ready result (by rw [invalid]; decide)
  simp only [serve, handleSockReadReady, dies]
  rfl

omit positive roomy in
/-- A worker's first read from its client brings the datagram of a message
of topic `t` and then a size field of 0, which cannot count itself: the
message is built, and the program dies at the next wakeup. -/
theorem serve_dies_after_consume_invalid_zero_size :
    decode (TFrameFormat.withMaxMsgBodySize ⟨.int32, true, true, 0, by decide⟩ 100 (by decide)).split
        (dgOfT ++ [0, 0, 0, 0]) = ([dgOfT], .invalid .invalidSizeField [0, 0, 0, 0]) ∧
      ∃ worker, create (TPool.create 24 4) = .ok worker ∧ ∃ after msgs discards,
        handleSockReadReady (.bytes (dgOfT ++ [0, 0, 0, 0])) (worker.setState false 100 (TPool.create 24 4) 5) =
          .ok (true, after) ∧
        BuildsAll [dgOfT] (TPool.create 24 4) msgs discards after.pool ∧
        after.outputQueue = worker.outputQueue ++ msgs ∧
        after.anomalies = worker.anomalies ++ discards.map .discard ∧
        (∀ result items, serve (.sock result :: items) after =
          .error (.reader (.die "Invalid call to TStreamMsgReader::Read()"))) ∧
        ∃ msg, msgs = [msg] ∧ msg.Holds ⟨.anyPartition, 0, [116], [1], [2]⟩ (TPool.create 24 4).getDataSize := by
  have fits : (⟨.anyPartition, 0, [116], [1], [2]⟩ : TDgContents).Fits :=
    ⟨by decide, by decide, by decide, by decide, fun _ routed => by cases routed⟩
  have decoded : decode (TFrameFormat.withMaxMsgBodySize ⟨.int32, true, true, 0, by decide⟩ 100 (by decide)).split
      (dgOfT ++ [0, 0, 0, 0]) = ([dgOfT], .invalid .invalidSizeField [0, 0, 0, 0]) := by decide
  obtain ⟨worker, created, inv⟩ := create_inv (TPool.create 24 4) (4 + 100 + 64 * 1024 - 1)
  obtain ⟨inv', needed, emptied⟩ : (worker.setState false 100 (TPool.create 24 4) 5).streamReader.Inv
        (TFrameFormat.withMaxMsgBodySize ⟨.int32, true, true, 0, by decide⟩ 100 (by decide)) (64 * 1024)
        (4 + 100 + 64 * 1024 - 1) ∧
      (worker.setState false 100 (TPool.create 24 4) 5).streamReader.state = .readNeeded ∧
      (worker.setState false 100 (TPool.create 24 4) 5).streamReader.buf.contents = [] :=
    inv.reset_setMaxMsgBodySize (by decide) 100 (by decide)
  have read : decode (TFrameFormat.withMaxMsgBodySize ⟨.int32, true, true, 0, by decide⟩ 100 (by decide)).split
      ((worker.setState false 100 (TPool.create 24 4) 5).streamReader.buf.contents ++ (dgOfT ++ [0, 0, 0, 0])) =
        ([dgOfT], .invalid .invalidSizeField [0, 0, 0, 0]) := by
    rw [emptied, List.nil_append]
    exact decoded
  obtain ⟨after, msgs, discards, handled, built, queue, reported, dies⟩ :=
    serve_dies_after_consume_invalid (by decide) (by decide) inv' needed (by decide) read (List.cons_ne_nil _ _)
      fun dg member => by rw [List.mem_singleton.mp member]; exact builds_of_encode fits (by decide)
  -- the datagram has a key, and the pool room for it: it becomes the message
  obtain ⟨rest, msg, made, holds⟩ := buildMsgFromDg_encode_ok fits (by decide)
    (show 1 + 1 ≤ (TPool.create 24 4).freeCount * (TPool.create 24 4).getDataSize by decide)
  obtain ⟨rfl, -, -⟩ := built.singleton made
  exact ⟨decoded, worker, created, after, [msg], discards, handled, built, queue, reported, dies, msg, rfl, holds⟩

/-- A run of wakeups while the client writes, on a reader that needs data:
every frame that the bytes read complete is built into the output queue in
order, however `read()` cut the stream, and the worker still serves its
client, its reader needing data and holding what is left of the stream.  By
induction on the wakeups, one `handleSockReadReady_continues` each. -/
theorem serve_continues (inv : worker.streamReader.Inv format readSize cap)
    (needed : worker.streamReader.state = .readNeeded) {results : List TReadResult}
    (continues : ∀ result ∈ results, result.Continues readSize) {frames : List (List UInt8)} {leftover : List UInt8}
    (decoded : decode format.split (worker.streamReader.buf.contents ++
      results.flatMap fun result => (TStreamEvent.read result).bytesRead) = (frames, .pending leftover))
    (builds : ∀ dg ∈ frames, Builds dg) :
    ∃ after msgs discards, serve (results.map .sock) worker = .ok (true, after) ∧
      BuildsAll frames worker.pool msgs discards after.pool ∧
      after.outputQueue = worker.outputQueue ++ msgs ∧
      after.anomalies = worker.anomalies ++ discards.map .discard ∧ after.isTcp = worker.isTcp ∧
      after.streamReader.Inv format readSize cap ∧ after.streamReader.state = .readNeeded ∧
      after.streamReader.buf.contents = leftover := by
  induction results generalizing worker frames with
  | nil =>
      rw [List.flatMap_nil, List.append_nil, inv.decode_of_readNeeded needed] at decoded
      cases decoded
      exact ⟨worker, [], [], rfl, .nil _, (List.append_nil _).symm, by rw [List.map_nil, List.append_nil], rfl, inv,
        needed, rfl⟩
  | cons result results ih =>
      -- the frames this wakeup completes, then those of the wakeups after it
      rw [List.flatMap_cons, ← List.append_assoc, decode_append format.split_prefixStable] at decoded
      rcases first : decode format.split (worker.streamReader.buf.contents ++ (TStreamEvent.read result).bytesRead)
        with ⟨done, pending | ⟨reason, rest⟩⟩
      · rw [first, decodeMore_pending] at decoded
        obtain ⟨rfl, restDecoded⟩ := Prod.mk.inj decoded
        obtain ⟨next, msgs, discards, handled, built, queue, reported, tcp, inv', needed', contents⟩ :=
          handleSockReadReady_continues positive roomy inv needed (continues result List.mem_cons_self) first
            (fun dg member => builds dg (List.mem_append_left _ member))
        obtain ⟨after, msgs', discards', served, built', queue', reported', tcp', invAfter, neededAfter,
            contentsAfter⟩ :=
          ih inv' needed' (fun result' member => continues result' (List.mem_cons_of_mem _ member))
            (by rw [contents]; exact Prod.ext rfl restDecoded)
            (fun dg member => builds dg (List.mem_append_right _ member))
        refine ⟨after, msgs ++ msgs', discards ++ discards', ?_, built.append built', ?_, ?_, by rw [tcp', tcp],
          invAfter, neededAfter, contentsAfter⟩
        · simp only [List.map_cons, serve, handled, Foundation.ok_bind, if_true]
          exact served
        · rw [queue', queue, List.append_assoc]
        · rw [reported', reported, List.map_append, List.append_assoc]
      · -- data found invalid stays invalid, whatever follows
        rw [first, decodeMore_invalid] at decoded
        cases decoded

end Wakeups

/-- A client's whole session, from `SetState()` on a worker whose reader
holds the invariant to the end of the client's stream, read in pieces cut
anywhere with retried failures between them: every message of the stream
is built into the output queue in order, the worker is done with the client
when it closes, and it reports an unclean disconnect exactly when the
client left part of a message. -/
theorem serve_session {format : TFrameFormat} {readSize cap : Nat} {worker : TStreamClientWorkFn}
    (inv : worker.streamReader.Inv format readSize cap) (isTcp : Bool) {maxStreamMsgSize : Nat}
    (fits : maxStreamMsgSize + format.sizeFieldType.size < 2 ^ 64) (pool : TPool) {clientSocket : Int}
    (openFd : 0 ≤ clientSocket) (positive : 0 < readSize)
    (roomy : format.sizeFieldType.size + maxStreamMsgSize + readSize ≤ cap + 1) {results : List TReadResult}
    (continues : ∀ result ∈ results, result.Continues readSize) {frames : List (List UInt8)} {leftover : List UInt8}
    (decoded : decode (format.withMaxMsgBodySize maxStreamMsgSize fits).split
      (results.flatMap fun result => (TStreamEvent.read result).bytesRead) = (frames, .pending leftover))
    (builds : ∀ dg ∈ frames, Builds dg) :
    ∃ after msgs discards,
      serve (results.map .sock ++ [.sock (.bytes [])]) (worker.setState isTcp maxStreamMsgSize pool clientSocket) =
        .ok (false, after) ∧
      BuildsAll frames pool msgs discards after.pool ∧ after.outputQueue = worker.outputQueue ++ msgs ∧
      after.anomalies = worker.anomalies ++ discards.map .discard ++
        if leftover = [] then [] else [.uncleanDisconnect isTcp leftover] := by
  -- the reader the worker serves the client with
  obtain ⟨inv', needed, emptied⟩ : (worker.setState isTcp maxStreamMsgSize pool clientSocket).streamReader.Inv
        (format.withMaxMsgBodySize maxStreamMsgSize fits) readSize cap ∧
      (worker.setState isTcp maxStreamMsgSize pool clientSocket).streamReader.state = .readNeeded ∧
      (worker.setState isTcp maxStreamMsgSize pool clientSocket).streamReader.buf.contents = [] :=
    inv.reset_setMaxMsgBodySize openFd maxStreamMsgSize fits
  obtain ⟨middle, msgs, discards, served, built, queue, reported, tcp, invMiddle, neededMiddle, contents⟩ :=
    serve_continues positive roomy inv' needed continues (by rw [emptied, List.nil_append]; exact decoded) builds
  obtain ⟨last, ended, pool', queue', reported'⟩ := handleSockReadReady_of_end positive roomy invMiddle neededMiddle
  refine ⟨last, msgs, discards, ?_, by rw [pool']; exact built, by rw [queue', queue]; rfl, ?_⟩
  · rw [serve_append served]
    simp only [serve, ended, Foundation.ok_bind]
    rfl
  · rw [reported', reported, contents, tcp]
    rfl

/-- A TCP client writes the datagram of a message of topic `t` and the
first five bytes of the next, in three reads with a retried failure between
them, and closes: the message is built, and the five bytes are reported
with the unclean disconnect. -/
theorem serve_session_unclean :
    decode (TFrameFormat.withMaxMsgBodySize ⟨.int32, true, true, 0, by decide⟩ 100 (by decide)).split
        (dgOfT ++ [0, 0, 0, 6, 1]) = ([dgOfT], .pending [0, 0, 0, 6, 1]) ∧
      ∃ worker, create (TPool.create 24 4) = .ok worker ∧ ∃ after msgs discards,
        serve ([.bytes (dgOfT.take 3), .failed .eagain, .bytes (dgOfT.drop 3), .bytes [0, 0, 0, 6, 1]].map .sock ++
            [.sock (.bytes [])]) (worker.setState true 100 (TPool.create 24 4) 5) = .ok (false, after) ∧
        BuildsAll [dgOfT] (TPool.create 24 4) msgs discards after.pool ∧
        after.outputQueue = worker.outputQueue ++ msgs ∧
        after.anomalies = worker.anomalies ++ discards.map .discard ++
          (if ([0, 0, 0, 6, 1] : List UInt8) = [] then [] else [.uncleanDisconnect true [0, 0, 0, 6, 1]]) ∧
        ∃ msg, msgs = [msg] ∧ msg.Holds ⟨.anyPartition, 0, [116], [1], [2]⟩ (TPool.create 24 4).getDataSize := by
  have fits : (⟨.anyPartition, 0, [116], [1], [2]⟩ : TDgContents).Fits :=
    ⟨by decide, by decide, by decide, by decide, fun _ routed => by cases routed⟩
  have decoded : decode (TFrameFormat.withMaxMsgBodySize ⟨.int32, true, true, 0, by decide⟩ 100 (by decide)).split
      (dgOfT ++ [0, 0, 0, 6, 1]) = ([dgOfT], .pending [0, 0, 0, 6, 1]) := by decide
  obtain ⟨worker, created, inv⟩ := create_inv (TPool.create 24 4) (4 + 100 + 64 * 1024 - 1)
  -- the reads bring the datagram and the five bytes, in three pieces
  have decodedReads : decode (TFrameFormat.withMaxMsgBodySize ⟨.int32, true, true, 0, by decide⟩ 100 (by decide)).split
      (([.bytes (dgOfT.take 3), .failed .eagain, .bytes (dgOfT.drop 3), .bytes [0, 0, 0, 6, 1]] : List TReadResult).flatMap
        fun result => (TStreamEvent.read result).bytesRead) = ([dgOfT], .pending [0, 0, 0, 6, 1]) := decoded
  obtain ⟨after, msgs, discards, served, built, queue, reported⟩ :=
    serve_session inv true (by decide) (TPool.create 24 4) (show (0 : Int) ≤ 5 by decide) (by decide) (by decide)
      (by decide)
      decodedReads fun dg member => by rw [List.mem_singleton.mp member]; exact builds_of_encode fits (by decide)
  -- the datagram has a key, and the pool room for it: it becomes the message
  obtain ⟨rest, msg, made, holds⟩ := buildMsgFromDg_encode_ok fits (by decide)
    (show 1 + 1 ≤ (TPool.create 24 4).freeCount * (TPool.create 24 4).getDataSize by decide)
  obtain ⟨rfl, -, -⟩ := built.singleton made
  exact ⟨decoded, worker, created, after, [msg], discards, served, built, queue, reported, msg, rfl, holds⟩

end TStreamClientWorkFn

end Dory
