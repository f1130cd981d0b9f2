/-
Module: Dory.Base.StreamReaderRuns
Purpose: Whole runs of a client of `TStreamMsgWithSizeReader<T>`.  The
  client calls `Read()` when the reader needs data, and takes each ready
  message before it calls `ConsumeReadyMsg()`.  What the client sees of a
  reader (`TStreamMsgReader.view`: its data, and whether the input has
  ended) is the abstract reader of the `Framing` library over the reader's
  format.  The reader's invariant (`TStreamMsgReader.Inv`) ties its state,
  its ready message and its reason for invalid data to what the format finds
  in its data, and bounds its storage.  Every call the abstract reader
  allows is a call of the code that cannot fail and hands out the same
  message (`Inv.clientStep`).  So every run the abstract reader allows is a
  run of the code with the same messages (`Inv.runExcept`): the frames of
  the bytes read, however `read()` cut them, in a storage never larger than
  a size field, a largest body and a read together.
Trusted boundary: none
Main exports: TStreamState.ofSplit, TStreamEvent.framed, TFrameFormat.readerStep,
  TStreamMsgReader.view, TStreamMsgReader.Inv, TStreamMsgReader.Inv.clientStep,
  TStreamMsgReader.Inv.runExcept
-/
import Dory.Base.StreamMsgWithSizeReader

namespace Dory.Base

open Foundation

/-- The state a reader takes for what the format finds at the front of its
data. -/
def TStreamState.ofSplit : TSplit UInt8 (List UInt8) TDataInvalidReason → Bool → TStreamState
  | .frame _ _, _ => .msgReady
  | .incomplete, ended => if ended then .atEnd else .readNeeded
  | .invalid _, _ => .dataInvalid

/-- A client's call as the abstract reader sees it: bytes read are fed, a
failure that `read()` is retried after is a wait, and taking the ready
message takes the frame.  Other failures are not calls it allows. -/
def TStreamEvent.framed : TStreamEvent → Option (TFramedEvent UInt8)
  | .read (.bytes data) => some (.feed data)
  | .read (.failed errno) => if errno.isRetry then some .idle else none
  | .consumeReadyMsg => some .take

/-- The bytes a call brings. -/
def TStreamEvent.bytesRead : TStreamEvent → List UInt8
  | .read (.bytes data) => data
  | .read (.failed _) | .consumeReadyMsg => []

namespace TFrameFormat

/-- The abstract reader of a stream in `format`, reading at most
`readSize` bytes at a time, driven by a client's calls. -/
def readerStep (format : TFrameFormat) (readSize : Nat) (state : TFramedState UInt8) (event : TStreamEvent) :
    Option (Option (List UInt8) × TFramedState UInt8) :=
  event.framed.bind (framedStep format.split readSize state)

/-- Each call the abstract reader allows hands out the frame at the front,
if it takes one. -/
theorem readerStep_decode (format : TFrameFormat) {readSize : Nat} {state state' : TFramedState UInt8}
    {event : TStreamEvent} {output : Option (List UInt8)}
    (stepped : format.readerStep readSize state event = some (output, state')) :
    decode format.split (state.pending ++ event.bytesRead) =
      (output.toList ++ (decode format.split state'.pending).1, (decode format.split state'.pending).2) := by
  obtain ⟨framed, isFramed, stepped⟩ := Option.bind_eq_some_iff.mp stepped
  have fed : framed.fed = event.bytesRead := by
    cases event with
    | read result =>
        cases result with
        | bytes data =>
            cases isFramed
            rfl
        | failed errno =>
            simp only [TStreamEvent.framed] at isFramed
            split_ifs at isFramed
            cases isFramed
            rfl
    | consumeReadyMsg =>
        cases isFramed
        rfl
  rw [← fed]
  exact framedStep_decode format.split_prefixStable stepped

/-- While no message is whole, the data is shorter than a size field and a
largest body. -/
theorem length_lt_of_incomplete (format : TFrameFormat) {bytes : List UInt8}
    (incomplete : format.split bytes = .incomplete) :
    bytes.length < format.sizeFieldType.size + format.maxMsgBodySize := by
  unfold split at incomplete
  split_ifs at incomplete with short
  · omega
  · rcases header : format.header bytes with reason | body
    · rw [header] at incomplete
      cases incomplete
    · rw [header] at incomplete
      dsimp only at incomplete
      split_ifs at incomplete with shortBody
      have := format.header_le header
      omega

/-- No data holds no message yet. -/
theorem split_nil (format : TFrameFormat) : format.split [] = .incomplete := by
  unfold split
  rw [List.length_nil, if_pos format.sizeFieldType.size_pos]

/-- The format after `SetMaxMsgBodySize(size)`. -/
def withMaxMsgBodySize (format : TFrameFormat) (size : Nat) (fits : size + format.sizeFieldType.size < 2 ^ 64) :
    TFrameFormat :=
  { format with maxMsgBodySize := size, maxFits := fits }

end TFrameFormat

/-- More data behind the size field leaves the body size it announces. -/
theorem TStreamMsgWithSizeReaderBase.Knows.append {format : TFrameFormat} {base : TStreamMsgWithSizeReaderBase}
    {data : List UInt8} (knows : base.Knows format data) (more : List UInt8) : base.Knows format (data ++ more) := by
  intro body known
  obtain ⟨long, header⟩ := knows body known
  refine ⟨by simp only [List.length_append]; omega, ?_⟩
  rw [format.header_append long, header]

namespace TStreamMsgReader

/-- What the client sees of a reader: its data, and whether the input has
ended. -/
def view {σ : Type} (reader : TStreamMsgReader σ) : TFramedState UInt8 :=
  ⟨reader.buf.contents, reader.endOfInput⟩

/-- The invariant of a reader of a stream in `format`, reading `readSize`
bytes at a time in no more than `cap` bytes of storage: its state, its
ready message and its reason for invalid data are what the format finds in
its data. -/
structure Inv (format : TFrameFormat) (readSize cap : Nat) (reader : TStreamMsgReader TStreamMsgWithSizeReaderBase) :
    Prop where
  valid : reader.buf.Valid
  reads : reader.sub.Reads format
  knows : reader.sub.Knows format reader.buf.contents
  readSize : reader.sub.preferredReadSize = readSize
  state : reader.state = .ofSplit (format.split reader.buf.contents) reader.endOfInput
  ready : ∀ {msg rest}, format.split reader.buf.contents = .frame msg rest →
    (reader.buf.contents.drop reader.readyMsgOffset).take reader.readyMsgSize = msg ∧
    reader.readyMsgOffset + reader.readyMsgSize + reader.trailingDataSize ≤ reader.buf.contents.length ∧
    reader.buf.contents.drop (reader.readyMsgOffset + reader.readyMsgSize + reader.trailingDataSize) = rest
  cleared : reader.state ≠ .msgReady → reader.readyMsgOffset = 0 ∧ reader.readyMsgSize = 0
  invalidReason : ∀ {reason}, format.split reader.buf.contents = .invalid reason →
    reader.sub.optDataInvalidReason = some reason
  openFd : reader.state ≠ .atEnd → 0 ≤ reader.fd
  bounded : reader.buf.storage.length ≤ cap

section Steps

variable {format : TFrameFormat} {readSize cap : Nat} {reader : TStreamMsgReader TStreamMsgWithSizeReaderBase}

/-- `TryAdvanceToNextMsg()` with no message ready, on a reader whose
subclass reads the format and knows its data: the reader takes the state
the format gives its data, and the invariant holds. -/
theorem inv_tryAdvanceToNextMsg (valid : reader.buf.Valid) (reads : reader.sub.Reads format)
    (knows : reader.sub.Knows format reader.buf.contents) (sized : reader.sub.preferredReadSize = readSize)
    (cleared : reader.readyMsgOffset = 0 ∧ reader.readyMsgSize = 0) (openFd : 0 ≤ reader.fd)
    (bounded : reader.buf.storage.length ≤ cap) :
    ∃ after, tryAdvanceToNextMsg TStreamMsgWithSizeReaderBase.hooks reader = .ok after ∧
      after.Inv format readSize cap ∧ after.view = reader.view := by
  have dataSize : reader.buf.dataSize = reader.buf.contents.length := (TBuf.length_contents valid).symm
  rcases found : format.split reader.buf.contents with ⟨msg, rest⟩ | _ | reason
  · -- a whole message: ready, where the format's frame lies
    obtain ⟨offset, size, body, next, knows', taken, inside, dropped⟩ :=
      reader.sub.getNextMsg_of_frame reads knows reader.endOfInput found
    refine ⟨_, tryAdvanceToNextMsg_msgReady next (by omega) cleared, ⟨valid, reads.withOpt _ _, knows',
      sized, by simp only [found, TStreamState.ofSplit], ?_, by simp, ?_, fun _ => openFd, bounded⟩, rfl⟩
    · intro msg' rest' found'
      simp only [found, TSplit.frame.injEq] at found'
      obtain ⟨rfl, rfl⟩ := found'
      exact ⟨taken, by omega, by simpa using dropped⟩
    · intro reason' found'
      simp only [found, reduceCtorEq] at found'
  · -- no whole message: more data is needed, unless the input has ended
    obtain ⟨cache, next, knows'⟩ := reader.sub.getNextMsg_of_incomplete reads knows reader.endOfInput found
    refine ⟨_, tryAdvanceToNextMsg_noMsgReady next, ⟨valid, reads.withOpt _ _, knows', sized,
      by simp only [found, TStreamState.ofSplit], ?_, fun _ => cleared, ?_, fun _ => openFd, bounded⟩, rfl⟩
    · intro msg' rest' found'
      simp only [found, reduceCtorEq] at found'
    · intro reason' found'
      simp only [found, reduceCtorEq] at found'
  · -- an invalid size field: the data is invalid, for the format's reason
    have next := reader.sub.getNextMsg_of_invalid reads knows reader.endOfInput found
    refine ⟨_, tryAdvanceToNextMsg_invalid next, ⟨valid, reads.withOpt _ _, knows, sized,
      by simp only [found, TStreamState.ofSplit], ?_, fun _ => cleared, ?_, fun _ => openFd, bounded⟩, rfl⟩
    · intro msg' rest' found'
      simp only [found, reduceCtorEq] at found'
    · intro reason' found'
      simp only [found, TSplit.invalid.injEq] at found'
      rw [found']

/-- A reader's buffer replaced by a valid one with the same data and no
more storage than allowed: the invariant still holds. -/
theorem Inv.withBuf (inv : reader.Inv format readSize cap) {buf : TBuf UInt8} (valid : buf.Valid)
    (same : buf.contents = reader.buf.contents) (bounded : buf.storage.length ≤ cap) :
    ({ reader with buf } : TStreamMsgReader TStreamMsgWithSizeReaderBase).Inv format readSize cap := by
  obtain ⟨-, reads, knows, sized, state, ready, cleared, invalidReason, openFd, -⟩ := inv
  refine ⟨valid, reads, ?_, sized, ?_, ?_, cleared, ?_, openFd, bounded⟩
  · simpa only [same] using knows
  · simpa only [same] using state
  · intro msg rest found
    simp only [same] at found ⊢
    exact ready found
  · intro reason found
    simp only [same] at found ⊢
    exact invalidReason found

end Steps

@[simp] theorem ofSplit_eq_readNeeded {found : TSplit UInt8 (List UInt8) TDataInvalidReason} {ended : Bool} :
    TStreamState.ofSplit found ended = .readNeeded ↔ found = .incomplete ∧ ended = false := by
  cases found <;> cases ended <;> simp [TStreamState.ofSplit]

theorem ofSplit_frame (msg rest : List UInt8) (ended : Bool) :
    TStreamState.ofSplit (.frame msg rest) ended = .msgReady := rfl

section Calls

variable {format : TFrameFormat} {readSize cap : Nat} {reader : TStreamMsgReader TStreamMsgWithSizeReaderBase}
variable (positive : 0 < readSize) (roomy : format.sizeFieldType.size + format.maxMsgBodySize + readSize ≤ cap + 1)

/-- While the reader needs data, its data and a read fit the storage
allowed: the data is shorter than a size field and a largest body. -/
theorem Inv.room (inv : reader.Inv format readSize cap) (roomy : format.sizeFieldType.size + format.maxMsgBodySize + readSize ≤ cap + 1)
    (needed : reader.state = .readNeeded) : max reader.buf.storage.length (reader.buf.itemCount + readSize) ≤ cap := by
  obtain ⟨incomplete, -⟩ := ofSplit_eq_readNeeded.mp (inv.state.symm.trans needed)
  have short := format.length_lt_of_incomplete incomplete
  have count := TBuf.length_contents inv.valid
  have bounded := inv.bounded
  omega

include positive roomy

/-- `Read()` of bytes when the reader needs data, at most the read size of
them: the bytes join the data, an empty read ends the input, and the
invariant holds. -/
theorem Inv.read_bytes (inv : reader.Inv format readSize cap) (needed : reader.state = .readNeeded)
    {data : List UInt8} (fits : data.length ≤ readSize) :
    ∃ after, read TStreamMsgWithSizeReaderBase.hooks (.bytes data) reader = .ok after ∧
      after.Inv format readSize cap ∧ after.view = ⟨reader.buf.contents ++ data, reader.endOfInput || decide (data = [])⟩ := by
  have sized : TStreamMsgWithSizeReaderBase.hooks.getNextReadSize reader.sub = readSize := inv.readSize
  obtain ⟨filled, appended, grown⟩ :=
    Valid.read_buf inv.valid (show data.length ≤ TStreamMsgWithSizeReaderBase.hooks.getNextReadSize reader.sub by
      rw [sized]
      exact fits)
  have room : max reader.buf.storage.length
      (reader.buf.itemCount + TStreamMsgWithSizeReaderBase.hooks.getNextReadSize reader.sub) ≤ cap := by
    rw [sized]
    exact inv.room roomy needed
  rw [TStreamMsgReader.read_bytes data needed (by rw [sized]; exact positive)]
  obtain ⟨after, advanced, inv', viewed⟩ :=
    @inv_tryAdvanceToNextMsg format readSize cap
      { reader with
        buf := ((reader.buf.ensureSpace (TStreamMsgWithSizeReaderBase.hooks.getNextReadSize reader.sub)).writeSpace
          data).markSpaceConsumed data.length
        endOfInput := reader.endOfInput || decide (data = []) }
      filled inv.reads (by simpa only [appended] using inv.knows.append data) inv.readSize
      (inv.cleared (by rw [needed]; decide)) (inv.openFd (by rw [needed]; decide)) (le_trans grown room)
  refine ⟨after, advanced, inv', ?_⟩
  rw [viewed]
  simp only [view, appended]

/-- `Read()` after a failure that `read()` is retried after: only the space
made for the read changes, and the invariant holds. -/
theorem Inv.read_retry (inv : reader.Inv format readSize cap) (needed : reader.state = .readNeeded)
    {errno : TErrno} (retry : errno.isRetry = true) :
    ∃ after, read TStreamMsgWithSizeReaderBase.hooks (.failed errno) reader = .ok after ∧
      after.Inv format readSize cap ∧ after.view = reader.view := by
  have sized : TStreamMsgWithSizeReaderBase.hooks.getNextReadSize reader.sub = readSize := inv.readSize
  obtain ⟨ensured, same, -⟩ := inv.valid.ensureSpace readSize
  have grown := inv.valid.storage_ensureSpace_le readSize
  refine ⟨_, by rw [TStreamMsgReader.read_retry retry needed (by rw [sized]; exact positive), sized],
    inv.withBuf ensured same (le_trans grown (inv.room roomy needed)), ?_⟩
  simp only [view, same]

/-- `Read()` of some bytes when the reader needs data: the bytes join the
data, and the input goes on. -/
theorem Inv.read_some (inv : reader.Inv format readSize cap) (needed : reader.state = .readNeeded)
    {data : List UInt8} (nonempty : data ≠ []) (fits : data.length ≤ readSize) :
    ∃ after, read TStreamMsgWithSizeReaderBase.hooks (.bytes data) reader = .ok after ∧
      after.Inv format readSize cap ∧ after.buf.contents = reader.buf.contents ++ data ∧
      after.endOfInput = false := by
  obtain ⟨-, notEnded⟩ := ofSplit_eq_readNeeded.mp (inv.state.symm.trans needed)
  obtain ⟨after, readOk, inv', viewed⟩ := inv.read_bytes positive roomy needed fits
  refine ⟨after, readOk, inv', congrArg TFramedState.pending viewed, ?_⟩
  have ended := congrArg TFramedState.ended viewed
  simpa only [view, notEnded, nonempty, decide_false, Bool.false_or] using ended

/-- `Read()` that finds the end of input when the reader needs data: the
data stays, and the reader is at its end. -/
theorem Inv.read_end (inv : reader.Inv format readSize cap) (needed : reader.state = .readNeeded) :
    ∃ after, read TStreamMsgWithSizeReaderBase.hooks (.bytes []) reader = .ok after ∧
      after.Inv format readSize cap ∧ after.buf.contents = reader.buf.contents ∧ after.state = .atEnd := by
  obtain ⟨incomplete, -⟩ := ofSplit_eq_readNeeded.mp (inv.state.symm.trans needed)
  obtain ⟨after, readOk, inv', viewed⟩ :=
    inv.read_bytes positive roomy needed (show ([] : List UInt8).length ≤ readSize from Nat.zero_le readSize)
  have contents : after.buf.contents = reader.buf.contents := by
    simpa only [view, List.append_nil] using congrArg TFramedState.pending viewed
  have ended : after.endOfInput = true := by
    simpa only [view, decide_true, Bool.or_true] using congrArg TFramedState.ended viewed
  refine ⟨after, readOk, inv', contents, ?_⟩
  rw [inv'.state, contents, incomplete, ended]
  rfl

/-- `Read()` after a failure that `read()` is retried after leaves the
reader needing data. -/
theorem Inv.read_retry_state (inv : reader.Inv format readSize cap) (needed : reader.state = .readNeeded)
    {errno : TErrno} (retry : errno.isRetry = true) :
    ∃ after, read TStreamMsgWithSizeReaderBase.hooks (.failed errno) reader = .ok after ∧
      after.Inv format readSize cap ∧ after.buf.contents = reader.buf.contents ∧ after.state = .readNeeded := by
  obtain ⟨after, readOk, inv', viewed⟩ := inv.read_retry positive roomy needed retry
  have contents : after.buf.contents = reader.buf.contents := congrArg TFramedState.pending viewed
  have ended : after.endOfInput = reader.endOfInput := congrArg TFramedState.ended viewed
  refine ⟨after, readOk, inv', contents, ?_⟩
  rw [inv'.state, contents, ended, ← inv.state, needed]

omit positive roomy in
/-- Taking the ready message and consuming it: the message is the format's
frame, the data is what follows it, and the invariant holds. -/
theorem Inv.consume (inv : reader.Inv format readSize cap) {msg rest : List UInt8}
    (found : format.split reader.buf.contents = .frame msg rest) :
    getReadyMsg reader = .ok msg ∧
      ∃ after, consumeReadyMsg TStreamMsgWithSizeReaderBase.hooks reader = .ok after ∧
        after.Inv format readSize cap ∧ after.view = ⟨rest, reader.endOfInput⟩ := by
  have ready : reader.state = .msgReady := by rw [inv.state, found, ofSplit_frame]
  obtain ⟨taken, inside, dropped⟩ := inv.ready found
  have dataSize : reader.buf.dataSize = reader.buf.contents.length := (TBuf.length_contents inv.valid).symm
  have openFd := inv.openFd (by rw [ready]; decide)
  refine ⟨by rw [getReadyMsg_eq ready openFd (by omega), taken], ?_⟩
  obtain ⟨consumed, remaining⟩ := inv.valid.markDataConsumed
    (show reader.readyMsgOffset + reader.readyMsgSize + reader.trailingDataSize ≤ reader.buf.dataSize by omega)
  rw [consumeReadyMsg_eq ready]
  -- the subclass forgets the body size before the message leaves the data
  obtain ⟨after, advanced, inv', viewed⟩ :=
    @inv_tryAdvanceToNextMsg format readSize cap
      { reader with
        sub := TStreamMsgWithSizeReaderBase.hooks.beforeConsumeReadyMsg reader.sub
        buf := reader.buf.markDataConsumed (reader.readyMsgOffset + reader.readyMsgSize + reader.trailingDataSize)
        readyMsgOffset := 0
        readyMsgSize := 0
        trailingDataSize := 0 }
      consumed (inv.reads.withOpt none _) (TStreamMsgWithSizeReaderBase.knows_none _ _) inv.readSize ⟨rfl, rfl⟩ openFd
      (by simpa only [TBuf.storage_markDataConsumed] using inv.bounded)
  refine ⟨after, advanced, inv', ?_⟩
  rw [viewed]
  simp only [view, remaining, dropped]

/-- Every call the abstract reader allows is a call of the code that does
not fail, hands out the same message and keeps the invariant. -/
theorem Inv.clientStep (inv : reader.Inv format readSize cap) {event : TStreamEvent} {output : Option (List UInt8)}
    {state' : TFramedState UInt8} (stepped : format.readerStep readSize reader.view event = some (output, state')) :
    ∃ after, clientStep TStreamMsgWithSizeReaderBase.hooks reader event = .ok (output, after) ∧
      after.Inv format readSize cap ∧ after.view = state' := by
  obtain ⟨framed, isFramed, stepped⟩ := Option.bind_eq_some_iff.mp stepped
  cases event with
  | read result =>
      -- both reads are allowed only while no message is whole and the input goes on
      cases result with
      | bytes data =>
          cases isFramed
          obtain ⟨incomplete, notEnded, fits, rfl, rfl⟩ := framedStep_feed_eq_some.mp stepped
          have needed : reader.state = .readNeeded := by rw [inv.state, ofSplit_eq_readNeeded]; exact ⟨incomplete, notEnded⟩
          obtain ⟨after, readOk, inv', viewed⟩ := inv.read_bytes positive roomy needed fits
          refine ⟨after, by simp only [TStreamMsgReader.clientStep, readOk]; rfl, inv', ?_⟩
          rw [viewed]
          simp only [view] at notEnded ⊢
          rw [notEnded]
          cases data <;> rfl
      | failed errno =>
          simp only [TStreamEvent.framed] at isFramed
          split_ifs at isFramed with retry
          cases isFramed
          obtain ⟨incomplete, notEnded, rfl, rfl⟩ := framedStep_idle_eq_some.mp stepped
          have needed : reader.state = .readNeeded := by rw [inv.state, ofSplit_eq_readNeeded]; exact ⟨incomplete, notEnded⟩
          obtain ⟨after, readOk, inv', viewed⟩ := inv.read_retry positive roomy needed retry
          exact ⟨after, by simp only [TStreamMsgReader.clientStep, readOk]; rfl, inv', viewed⟩
  | consumeReadyMsg =>
      cases isFramed
      obtain ⟨msg, rest, found, rfl, rfl⟩ := framedStep_take_eq_some.mp stepped
      obtain ⟨taken, after, consumed, inv', viewed⟩ := inv.consume found
      exact ⟨after, by simp only [TStreamMsgReader.clientStep, taken, consumed]; rfl, inv', viewed⟩

/-- Every run the abstract reader allows is a run of the code: it does not
fail, hands out the same messages and ends where the abstract reader ends,
with the invariant. -/
theorem Inv.runExcept (inv : reader.Inv format readSize cap) {events : List TStreamEvent}
    {outputs : List (Option (List UInt8))} {last : TFramedState UInt8}
    (allowed : runOption (format.readerStep readSize) reader.view events = some (outputs, last)) :
    ∃ after, Foundation.runExcept (TStreamMsgReader.clientStep TStreamMsgWithSizeReaderBase.hooks) reader events =
      .ok (outputs, after) ∧ after.Inv format readSize cap ∧ after.view = last := by
  obtain ⟨after, ran, inv', viewed⟩ :=
    runExcept_of_simulation (fun (reader : TStreamMsgReader TStreamMsgWithSizeReaderBase) state =>
        reader.Inv format readSize cap ∧ reader.view = state)
      (fun related stepped => by
        obtain ⟨inv, rfl⟩ := related
        exact inv.clientStep positive roomy stepped)
      ⟨inv, rfl⟩ allowed
  exact ⟨after, ran, inv', viewed⟩

end Calls

/-! ### The state, against the decode of the data -/

section Decode

variable {format : TFrameFormat} {readSize cap : Nat} {reader : TStreamMsgReader TStreamMsgWithSizeReaderBase}

/-- A ready message is a frame at the front of the data. -/
theorem Inv.frame_of_ready (inv : reader.Inv format readSize cap) (ready : reader.state = .msgReady) :
    ∃ msg rest, format.split reader.buf.contents = .frame msg rest := by
  have state := inv.state
  rw [ready] at state
  rcases found : format.split reader.buf.contents with ⟨msg, rest⟩ | _ | reason
  · exact ⟨msg, rest, rfl⟩
  · rw [found] at state
    cases ended : reader.endOfInput <;> simp [ended, TStreamState.ofSplit] at state
  · rw [found] at state
    cases state

/-- The data of a reader that needs data decodes to no frame, and is all
left over. -/
theorem Inv.decode_of_readNeeded (inv : reader.Inv format readSize cap) (needed : reader.state = .readNeeded) :
    decode format.split reader.buf.contents = ([], .pending reader.buf.contents) :=
  decode_incomplete (ofSplit_eq_readNeeded.mp (inv.state.symm.trans needed)).1

/-- Data whose decode starts with a frame holds a ready message. -/
theorem Inv.ready_of_decode (inv : reader.Inv format readSize cap)
    (framed : (decode format.split reader.buf.contents).1 ≠ []) : reader.state = .msgReady := by
  rw [inv.state]
  rcases found : format.split reader.buf.contents with ⟨msg, rest⟩ | _ | reason
  · rfl
  · rw [decode_incomplete found] at framed
    exact absurd rfl framed
  · rw [decode_invalid found] at framed
    exact absurd rfl framed

/-- Data that decodes to no frame and an invalid size field leaves the
reader in `DataInvalid`. -/
theorem Inv.dataInvalid_of_decode (inv : reader.Inv format readSize cap) {reason : TDataInvalidReason}
    {rest : List UInt8} (decoded : decode format.split reader.buf.contents = ([], .invalid reason rest)) :
    reader.state = .dataInvalid := by
  rw [inv.state]
  rcases found : format.split reader.buf.contents with ⟨msg, rest'⟩ | _ | reason'
  · rw [decode_frame format.split_prefixStable found] at decoded
    cases decoded
  · rw [decode_incomplete found] at decoded
    cases decoded
  · rfl

end Decode

/-! ### Every call the code runs -/

section Kept

variable {format : TFrameFormat} {readSize cap : Nat} {reader : TStreamMsgReader TStreamMsgWithSizeReaderBase}
variable (positive : 0 < readSize) (roomy : format.sizeFieldType.size + format.maxMsgBodySize + readSize ≤ cap + 1)
include positive roomy

/-- Every call of a client that the code runs without failing, with a read
that brings no more bytes than were asked for, keeps the invariant: a read
runs only while the reader needs data, and a message is handed out only
while one is ready. -/
theorem Inv.clientStep_keeps (inv : reader.Inv format readSize cap) {event : TStreamEvent}
    (fits : event.bytesRead.length ≤ readSize) {output : Option (List UInt8)}
    {after : TStreamMsgReader TStreamMsgWithSizeReaderBase}
    (stepped : TStreamMsgReader.clientStep TStreamMsgWithSizeReaderBase.hooks reader event = .ok (output, after)) :
    after.Inv format readSize cap := by
  have sized : TStreamMsgWithSizeReaderBase.hooks.getNextReadSize reader.sub = readSize := inv.readSize
  cases event with
  | read result =>
      obtain ⟨reader', readOk, rest⟩ := bind_eq_ok stepped
      cases rest
      -- a read that did not end the program found the reader needing data
      have needed : reader.state = .readNeeded := by
        by_contra notNeeded
        rw [read_of_not_ready result notNeeded] at readOk
        cases readOk
      cases result with
      | bytes data =>
          obtain ⟨after', readOk', inv', -⟩ :=
            inv.read_bytes positive roomy needed (show data.length ≤ readSize from fits)
          rw [readOk'] at readOk
          cases readOk
          exact inv'
      | failed errno =>
          cases retry : errno.isRetry
          · obtain ⟨fault, failed⟩ :=
              read_failed_of_not_retry retry needed (by rw [sized]; exact positive)
            rw [failed] at readOk
            cases readOk
          · obtain ⟨after', readOk', inv', -⟩ := inv.read_retry positive roomy needed retry
            rw [readOk'] at readOk
            cases readOk
            exact inv'
  | consumeReadyMsg =>
      obtain ⟨msg, taken, rest⟩ := bind_eq_ok stepped
      obtain ⟨reader', consumed, done⟩ := bind_eq_ok rest
      cases done
      -- the message handed out was ready, so the format finds it at the front
      obtain ⟨msg', rest', found⟩ := inv.frame_of_ready (getReadyMsg_state taken)
      obtain ⟨-, after', consumed', inv', -⟩ := inv.consume found
      rw [consumed'] at consumed
      cases consumed
      exact inv'

end Kept

/-! ### Runs from the constructor -/

/-- A reader made by the constructor for a format holds the invariant with
any storage allowance; its client sees no data, and the input ended when
there is no descriptor. -/
theorem inv_create (format : TFrameFormat) (fd : Int) (readSize cap : Nat) :
    ∃ reader, TStreamMsgWithSizeReader.create format.sizeFieldType fd format.sizeIncludesSizeField
        format.includeSizeFieldInMsg format.maxMsgBodySize readSize = .ok reader ∧
      reader.Inv format readSize cap ∧ reader.view = ⟨[], decide (fd < 0)⟩ := by
  have empty := format.split_nil
  refine ⟨_, TStreamMsgWithSizeReader.create_eq _ _ _ _ _ _,
    ⟨TBuf.valid_empty, ⟨rfl, rfl, rfl, rfl, chooseSizeFieldReadFn_type _⟩, ?_, rfl,
      ?_, ?_, fun _ => ⟨rfl, rfl⟩, ?_, ?_, Nat.zero_le _⟩, by simp [view, TStreamMsgReader.create]⟩
  · intro body known
    simp [TStreamMsgReader.create] at known
  · by_cases negative : fd < 0 <;> simp [TStreamMsgReader.create, negative, empty, TStreamState.ofSplit]
  · intro msg rest found
    simp [TStreamMsgReader.create, empty] at found
  · intro reason found
    simp [TStreamMsgReader.create, empty] at found
  · intro notAtEnd
    by_cases negative : fd < 0
    · simp [TStreamMsgReader.create, negative] at notAtEnd
    · simp only [TStreamMsgReader.create, if_neg negative]
      omega

/-- `Reset(fd)` to a new client's descriptor and then
`SetMaxMsgBodySize(size)`: whatever the reader was doing, it holds the
invariant for the format with the new largest body, in the storage it had,
and needs data, with none. -/
theorem Inv.reset_setMaxMsgBodySize {format : TFrameFormat} {readSize cap : Nat}
    {reader : TStreamMsgReader TStreamMsgWithSizeReaderBase} (inv : reader.Inv format readSize cap)
    {fd : Int} (openFd : 0 ≤ fd) (size : Nat) (fits : size + format.sizeFieldType.size < 2 ^ 64) :
    ((reader.reset TStreamMsgWithSizeReaderBase.hooks fd).setMaxMsgBodySize size).Inv
        (format.withMaxMsgBodySize size fits) readSize cap ∧
      ((reader.reset TStreamMsgWithSizeReaderBase.hooks fd).setMaxMsgBodySize size).state = .readNeeded ∧
      ((reader.reset TStreamMsgWithSizeReaderBase.hooks fd).setMaxMsgBodySize size).buf.contents = [] := by
  obtain ⟨valid, emptied⟩ := inv.valid.clear
  have closed : ¬fd < 0 := Int.not_lt.mpr openFd
  have empty := (format.withMaxMsgBodySize size fits).split_nil
  -- the reader's fields after the two calls, with its data gone
  have state : ((reader.reset TStreamMsgWithSizeReaderBase.hooks fd).setMaxMsgBodySize size).state = .readNeeded := by
    simp only [setMaxMsgBodySize, reset, create, if_neg closed]
  have contents : ((reader.reset TStreamMsgWithSizeReaderBase.hooks fd).setMaxMsgBodySize size).buf.contents = [] :=
    emptied
  have ended : ((reader.reset TStreamMsgWithSizeReaderBase.hooks fd).setMaxMsgBodySize size).endOfInput = false := by
    simp only [setMaxMsgBodySize, reset, create, closed, decide_false]
  refine ⟨⟨valid, ⟨inv.reads.sizeFieldSize, inv.reads.sizeIncludesSizeField, inv.reads.includeSizeFieldInMsg, rfl,
    inv.reads.sizeFieldReadFn⟩, ?_, inv.readSize, ?_, ?_, ?_, ?_, ?_, ?_⟩, state, contents⟩
  · intro body known
    cases known
  · rw [state, contents, empty, ended]
    rfl
  · intro msg rest found
    rw [contents, empty] at found
    cases found
  · intro _
    exact ⟨rfl, rfl⟩
  · intro reason found
    rw [contents, empty] at found
    cases found
  · intro _
    exact openFd.trans_eq (if_neg closed).symm
  · show reader.buf.clear.storage.length ≤ cap
    rw [TBuf.clear, TBuf.storage_markDataConsumed]
    exact inv.bounded

/-- The storage allowance of a reader: a size field, a largest body and a
read, less one byte. -/
theorem roomy_storage (format : TFrameFormat) (readSize : Nat) :
    format.sizeFieldType.size + format.maxMsgBodySize + readSize ≤
      format.sizeFieldType.size + format.maxMsgBodySize + readSize - 1 + 1 := by
  have := format.sizeFieldType.size_pos
  omega

/-- Every run that a client makes of a new reader, calling `Read()` only
when the reader needs data, with at most the read size of bytes or a failure
that `read()` is retried after, and taking each ready message before
consuming it, succeeds.  The messages it hands out are the frames of the
bytes read, however `read()` cut them: followed by the frames still in the
reader's data, they are the frames of the whole stream. -/
theorem create_runExcept_decode (format : TFrameFormat) (fd : Int) {readSize : Nat} (positive : 0 < readSize)
    {events : List TStreamEvent} {outputs : List (Option (List UInt8))} {last : TFramedState UInt8}
    (allowed : runOption (format.readerStep readSize) ⟨[], decide (fd < 0)⟩ events = some (outputs, last)) :
    ∃ reader after, TStreamMsgWithSizeReader.create format.sizeFieldType fd format.sizeIncludesSizeField
        format.includeSizeFieldInMsg format.maxMsgBodySize readSize = .ok reader ∧
      Foundation.runExcept (clientStep TStreamMsgWithSizeReaderBase.hooks) reader events = .ok (outputs, after) ∧
      after.buf.contents = last.pending ∧
      decode format.split (events.flatMap TStreamEvent.bytesRead) =
        (outputs.reduceOption ++ (decode format.split after.buf.contents).1,
          (decode format.split after.buf.contents).2) := by
  have decoded := runOption_decode TFramedState.pending TStreamEvent.bytesRead format.split_prefixStable
    (fun stepped => format.readerStep_decode stepped) allowed
  obtain ⟨reader, created, inv, viewed⟩ :=
    inv_create format fd readSize (format.sizeFieldType.size + format.maxMsgBodySize + readSize - 1)
  rw [← viewed] at allowed
  obtain ⟨after, ran, -, viewedAfter⟩ := inv.runExcept positive (roomy_storage format readSize) allowed
  have pending : after.buf.contents = last.pending := by rw [← viewedAfter]; rfl
  refine ⟨reader, after, created, ran, pending, ?_⟩
  rw [pending]
  simpa using decoded

/-- A stream of 8-bit size fields with one two-byte body, read as `[2, 7]`,
then `[8]`, then the end of input: the body is handed out. -/
theorem create_runExcept_decode_uint8 :
    runOption ((⟨.uint8, false, false, 3, by decide⟩ : TFrameFormat).readerStep 2) ⟨[], false⟩
        [.read (.bytes [2, 7]), .read (.bytes [8]), .consumeReadyMsg, .read (.bytes [])] =
      some ([none, none, some [7, 8], none], ⟨[], true⟩) ∧
    ∃ reader after, TStreamMsgWithSizeReader.create .uint8 3 false false 3 2 = .ok reader ∧
      Foundation.runExcept (clientStep TStreamMsgWithSizeReaderBase.hooks) reader
          [.read (.bytes [2, 7]), .read (.bytes [8]), .consumeReadyMsg, .read (.bytes [])] =
        .ok ([none, none, some [7, 8], none], after) ∧
      after.buf.contents = [] ∧
      decode (⟨.uint8, false, false, 3, by decide⟩ : TFrameFormat).split [2, 7, 8] =
        ([[7, 8]] ++ (decode (⟨.uint8, false, false, 3, by decide⟩ : TFrameFormat).split after.buf.contents).1,
          (decode (⟨.uint8, false, false, 3, by decide⟩ : TFrameFormat).split after.buf.contents).2) := by
  have allowed : runOption ((⟨.uint8, false, false, 3, by decide⟩ : TFrameFormat).readerStep 2) ⟨[], false⟩
      [.read (.bytes [2, 7]), .read (.bytes [8]), .consumeReadyMsg, .read (.bytes [])] =
      some ([none, none, some [7, 8], none], ⟨[], true⟩) := by decide
  exact ⟨allowed, create_runExcept_decode _ 3 (by decide) allowed⟩

/-- Over every such run, the reader's storage never grows beyond a size
field, a largest body and a read, less one byte: a read is made only while
the data holds no whole message. -/
theorem create_runExcept_storage_le (format : TFrameFormat) (fd : Int) {readSize : Nat} (positive : 0 < readSize)
    {events : List TStreamEvent} {outputs : List (Option (List UInt8))} {last : TFramedState UInt8}
    (allowed : runOption (format.readerStep readSize) ⟨[], decide (fd < 0)⟩ events = some (outputs, last)) :
    ∃ reader after, TStreamMsgWithSizeReader.create format.sizeFieldType fd format.sizeIncludesSizeField
        format.includeSizeFieldInMsg format.maxMsgBodySize readSize = .ok reader ∧
      Foundation.runExcept (clientStep TStreamMsgWithSizeReaderBase.hooks) reader events = .ok (outputs, after) ∧
      after.buf.storage.length ≤ format.sizeFieldType.size + format.maxMsgBodySize + readSize - 1 := by
  obtain ⟨reader, created, inv, viewed⟩ :=
    inv_create format fd readSize (format.sizeFieldType.size + format.maxMsgBodySize + readSize - 1)
  rw [← viewed] at allowed
  obtain ⟨after, ran, inv', -⟩ := inv.runExcept positive (roomy_storage format readSize) allowed
  exact ⟨reader, after, created, ran, inv'.bounded⟩

/-- The same run keeps the reader's storage within three bytes. -/
theorem create_runExcept_storage_le_uint8 :
    runOption ((⟨.uint8, false, false, 3, by decide⟩ : TFrameFormat).readerStep 2) ⟨[], false⟩
        [.read (.bytes [2, 7]), .read (.bytes [8]), .consumeReadyMsg, .read (.bytes [])] =
      some ([none, none, some [7, 8], none], ⟨[], true⟩) ∧
    ∃ reader after, TStreamMsgWithSizeReader.create .uint8 3 false false 3 2 = .ok reader ∧
      Foundation.runExcept (clientStep TStreamMsgWithSizeReaderBase.hooks) reader
          [.read (.bytes [2, 7]), .read (.bytes [8]), .consumeReadyMsg, .read (.bytes [])] =
        .ok ([none, none, some [7, 8], none], after) ∧
      after.buf.storage.length ≤ 1 + 3 + 2 - 1 := by
  have allowed : runOption ((⟨.uint8, false, false, 3, by decide⟩ : TFrameFormat).readerStep 2) ⟨[], false⟩
      [.read (.bytes [2, 7]), .read (.bytes [8]), .consumeReadyMsg, .read (.bytes [])] =
      some ([none, none, some [7, 8], none], ⟨[], true⟩) := by decide
  exact ⟨allowed, create_runExcept_storage_le _ 3 (by decide) allowed⟩

/-- Whatever a client sends, however `read()` cuts it, and whatever calls
the client makes of a new reader while they run: the reader's storage never
grows past its initial size or a size field, a largest body and a read,
less one byte; and whenever the reader needs data, its data is shorter than
a size field and a largest body.  A call the reader does not allow ends the
program, and the run with it. -/
theorem storage_bounded_over_calls (format : TFrameFormat) (fd : Int) {readSize : Nat} (positive : 0 < readSize)
    {reader : TStreamMsgReader TStreamMsgWithSizeReaderBase}
    (created : TStreamMsgWithSizeReader.create format.sizeFieldType fd format.sizeIncludesSizeField
      format.includeSizeFieldInMsg format.maxMsgBodySize readSize = .ok reader)
    {events : List TStreamEvent} (fits : ∀ event ∈ events, event.bytesRead.length ≤ readSize)
    {outputs : List (Option (List UInt8))} {after : TStreamMsgReader TStreamMsgWithSizeReaderBase}
    (ran : Foundation.runExcept (clientStep TStreamMsgWithSizeReaderBase.hooks) reader events = .ok (outputs, after)) :
    after.buf.storage.length ≤
        max reader.buf.storage.length (format.sizeFieldType.size + format.maxMsgBodySize + readSize - 1) ∧
      (after.state = .readNeeded → after.buf.contents.length < format.sizeFieldType.size + format.maxMsgBodySize) := by
  obtain ⟨reader', created', inv, -⟩ :=
    inv_create format fd readSize (format.sizeFieldType.size + format.maxMsgBodySize + readSize - 1)
  rw [created'] at created
  cases created
  -- every call that runs keeps the invariant, whose storage bound is the claim's
  have kept := runExcept_invariant (fun reader => reader.Inv format readSize
      (format.sizeFieldType.size + format.maxMsgBodySize + readSize - 1))
    (fun event => event.bytesRead.length ≤ readSize)
    (fun inv fits stepped => inv.clientStep_keeps positive (roomy_storage format readSize) fits stepped) inv fits ran
  refine ⟨le_trans kept.bounded (le_max_right _ _), fun needed => ?_⟩
  obtain ⟨incomplete, -⟩ := ofSplit_eq_readNeeded.mp (kept.state.symm.trans needed)
  exact format.length_lt_of_incomplete incomplete

/-- A reader of 8-bit size fields read two bytes at a time: a message split
over two reads with a retried failure between them, its consumption, and
the end of input. -/
theorem storage_bounded_over_calls_uint8 :
    ∃ reader after outputs,
      TStreamMsgWithSizeReader.create .uint8 3 false false 3 2 = .ok reader ∧
      (∀ event ∈ [TStreamEvent.read (.bytes [2, 7]), .read (.failed .eintr), .read (.bytes [8]),
          .consumeReadyMsg, .read (.bytes [])], event.bytesRead.length ≤ 2) ∧
      Foundation.runExcept (clientStep TStreamMsgWithSizeReaderBase.hooks) reader
          [.read (.bytes [2, 7]), .read (.failed .eintr), .read (.bytes [8]), .consumeReadyMsg, .read (.bytes [])] =
        .ok (outputs, after) ∧
      after.buf.storage.length ≤ max reader.buf.storage.length (1 + 3 + 2 - 1) ∧
      (after.state = .readNeeded → after.buf.contents.length < 1 + 3) := by
  obtain ⟨reader, created, inv, viewed⟩ :=
    inv_create (⟨.uint8, false, false, 3, by decide⟩ : TFrameFormat) 3 2 (1 + 3 + 2 - 1)
  have allowed : runOption ((⟨.uint8, false, false, 3, by decide⟩ : TFrameFormat).readerStep 2) reader.view
      [.read (.bytes [2, 7]), .read (.failed .eintr), .read (.bytes [8]), .consumeReadyMsg, .read (.bytes [])] =
      some ([none, none, none, some [7, 8], none], ⟨[], true⟩) := by
    rw [viewed]
    decide
  obtain ⟨after, ran, -, -⟩ := inv.runExcept (by decide) (roomy_storage _ _) allowed
  have fits : ∀ event ∈ [TStreamEvent.read (.bytes [2, 7]), .read (.failed .eintr), .read (.bytes [8]),
      .consumeReadyMsg, .read (.bytes [])], (TStreamEvent.bytesRead event).length ≤ 2 := by decide
  exact ⟨reader, after, _, created, fits, ran, storage_bounded_over_calls _ 3 (by decide) created fits ran⟩

end TStreamMsgReader

end Dory.Base
