/-
Module: Dory.Base.StreamMsgReader
Purpose: `Base::TStreamMsgReader` (base/stream_msg_reader.{h,cc}): the reader
  of a sequence of messages from a stream socket or a pipe.  It reads into a
  `TBuf<uint8_t>` as many bytes as its subclass asks for
  (`GetNextReadSize()`), and after each read and each consumed message asks
  the subclass whether a message is complete in its data (`GetNextMsg()`).
  The subclass's four overrides are the fields of `TStreamMsgHooks`, over
  the subclass's own state.  A read is given by what `read()` returned:
  bytes (none at the end of input) or a failure with its `errno`.  The
  fatal `errno` values of `Wr::read()`, the `std::system_error` of
  `IfLt0()` and every `Die()` are faults.  Asserts are not checked (release
  builds define `NDEBUG`); `RestrictReadyMsgCalls` only guards them and is
  left out.  The buffered data is a queue: a read appends what it got
  (`Valid.read_buf`), and a consumed message is dropped from the front.  A
  client calls `Read()` and takes each ready message before consuming it
  (`TStreamMsgReader.clientStep`).
Trusted boundary: `read()` writes the bytes it returns into `Buf.Space()`,
  at most as many as it was asked for.
Main exports: TStreamState, TGetMsgResult, TErrno, TReadResult, TStreamFault,
  TStreamMsgHooks, TStreamMsgReader, TStreamMsgReader.read,
  TStreamMsgReader.consumeReadyMsg, TStreamMsgReader.getReadyMsg,
  TStreamMsgReader.reset, TStreamEvent, TStreamMsgReader.clientStep
-/
import Dory.Base.Buf
import Dory.Foundation.Simulation

namespace Dory.Base

/-- `TStreamMsgReader::TState`. -/
inductive TStreamState where
  | readNeeded
  | msgReady
  | dataInvalid
  | atEnd
deriving DecidableEq, Repr

/-- `TGetMsgResult`, by its `TDataState`: a message at `offset` of `size`
bytes followed by `trailingDataSize` bytes of framing, no message yet, or
data that no message can be read from. -/
inductive TGetMsgResult where
  | msgReady (offset size trailingDataSize : Nat)
  | noMsgReady
  | invalid
deriving DecidableEq, Repr

/-- The `errno` values the readers and their callers tell apart. -/
inductive TErrno where
  | eagain
  | ewouldblock
  | eintr
  | ebadf
  | efault
  | einval
  | econnreset
  | epipe
  | eio
  | ehostunreach
  | ehostdown
  | etimedout
  | other (code : Nat)
deriving DecidableEq, Repr

namespace TErrno

/-- The `errno` values after which `ProcessReadResult()` returns the state
unchanged. -/
def isRetry : TErrno → Bool
  | eagain | ewouldblock | eintr => true
  | _ => false

/-- The `errno` values that `Wr::read()` treats as fatal. -/
def isFatalRead : TErrno → Bool
  | ebadf | efault | einval => true
  | _ => false

/-- `LostTcpConnection()`: the codes of `LostTcpConnectionErrorCodes`
(base/system_error_codes.cc). -/
def lostTcpConnection : TErrno → Bool
  | econnreset | epipe | eio | ehostunreach | ehostdown | etimedout => true
  | _ => false

end TErrno

/-- What `read()` returned: the bytes it read, none at the end of input, or
`-1` with `errno`. -/
inductive TReadResult where
  | bytes (data : List UInt8)
  | failed (errno : TErrno)
deriving DecidableEq, Repr

/-- How a call ends the program or throws: `Die()` with its message,
`DieErrnoWr()` for a fatal `errno` of `read()`, or the `std::system_error`
that `IfLt0()` throws. -/
inductive TStreamFault where
  | die (message : String)
  | dieErrno (errno : TErrno)
  | systemError (errno : TErrno)
deriving DecidableEq, Repr

/-- The subclass's overrides of `GetNextReadSize()`, `GetNextMsg()`,
`HandleReset()` and `BeforeConsumeReadyMsg()`, over its state `σ`.
`GetNextMsg()` sees the buffered data (`GetData()`, `GetDataSize()`) and
`AtEndOfInput()`. -/
structure TStreamMsgHooks (σ : Type) where
  getNextReadSize : σ → Nat
  getNextMsg : List UInt8 → Bool → σ → TGetMsgResult × σ
  handleReset : σ → σ
  beforeConsumeReadyMsg : σ → σ

/-- `TStreamMsgReader::TImpl`, with the subclass's state `sub`. -/
structure TStreamMsgReader (σ : Type) where
  state : TStreamState
  fd : Int
  buf : TBuf UInt8
  readyMsgOffset : Nat := 0
  readyMsgSize : Nat := 0
  trailingDataSize : Nat := 0
  endOfInput : Bool
  sub : σ

/-- `TStreamMsgReader::Read()` and `ConsumeReadyMsg()`, the two calls that
change the reader. -/
inductive TStreamEvent where
  | read (result : TReadResult)
  | consumeReadyMsg
deriving DecidableEq, Repr

namespace TStreamMsgReader

variable {σ : Type} (hooks : TStreamMsgHooks σ)

/-- The constructor `TStreamMsgReader(fd)`: `TImpl(fd, TBuf())`, ready to
read from a descriptor, at its end without one. -/
def create (fd : Int) (sub : σ) : TStreamMsgReader σ :=
  { state := if fd < 0 then .atEnd else .readNeeded
    fd := if fd < 0 then -1 else fd
    buf := {}
    endOfInput := decide (fd < 0)
    sub }

/-- `TryAdvanceToNextMsg()`: ask the subclass for a message in the data. -/
def tryAdvanceToNextMsg (reader : TStreamMsgReader σ) : Except TStreamFault (TStreamMsgReader σ) :=
  let (result, sub) := hooks.getNextMsg reader.buf.contents reader.endOfInput reader.sub
  let reader := { reader with sub }
  match result with
  | .msgReady offset size trailingDataSize =>
      -- a buggy subclass must not make the reader read past its data
      if offset > reader.buf.dataSize ∨ size > reader.buf.dataSize - offset ∨
          trailingDataSize > reader.buf.dataSize - reader.readyMsgOffset - reader.readyMsgSize then
        .error (.die "Attempt to read past end of buffer in TStreamMsgReader::TryAdvanceToNextMsg()")
      else
        .ok { reader with
          readyMsgOffset := offset
          readyMsgSize := size
          trailingDataSize
          state := .msgReady }
  | .noMsgReady => .ok { reader with state := if reader.endOfInput then .atEnd else .readNeeded }
  | .invalid => .ok { reader with state := .dataInvalid }

/-- `PrepareForRead()`: the read size, with space made for it. -/
def prepareForRead (reader : TStreamMsgReader σ) : Except TStreamFault (Nat × TStreamMsgReader σ) :=
  if reader.state ≠ .readNeeded then .error (.die "Invalid call to TStreamMsgReader::Read()")
  else
    let readSize := hooks.getNextReadSize reader.sub
    .ok (readSize, { reader with buf := reader.buf.ensureSpace readSize })

/-- `Wr::read()` with its default disposition: `EBADF`, `EFAULT` and
`EINVAL` end the program. -/
def wrRead (result : TReadResult) : Except TStreamFault TReadResult :=
  match result with
  | .failed errno => if errno.isFatalRead then .error (.dieErrno errno) else .ok result
  | .bytes _ => .ok result

/-- `ProcessReadResult()`: a retryable failure leaves the reader as it is,
another throws; bytes read are marked as data, none marks the end of
input. -/
def processReadResult (result : TReadResult) (reader : TStreamMsgReader σ) :
    Except TStreamFault (TStreamMsgReader σ) :=
  match result with
  | .failed errno => if errno.isRetry then .ok reader else .error (.systemError errno)
  | .bytes data =>
      let reader := if data = [] then { reader with endOfInput := true } else reader
      tryAdvanceToNextMsg hooks { reader with buf := (reader.buf.writeSpace data).markSpaceConsumed data.length }

/-- `Read()`: `result` is what `read(Fd, Buf.Space(), read_size)` returned. -/
def read (result : TReadResult) (reader : TStreamMsgReader σ) : Except TStreamFault (TStreamMsgReader σ) := do
  let (readSize, reader) ← prepareForRead hooks reader
  if readSize = 0 then pure reader
  else processReadResult hooks (← wrRead result) reader

/-- `ConsumeReadyMsg()`: the ready message and its framing leave the
data. -/
def consumeReadyMsg (reader : TStreamMsgReader σ) : Except TStreamFault (TStreamMsgReader σ) :=
  if reader.state ≠ .msgReady then .error (.die "Invalid call to TStreamMsgReader::ConsumeReadyMsg()")
  else
    let reader := { reader with sub := hooks.beforeConsumeReadyMsg reader.sub }
    tryAdvanceToNextMsg hooks { reader with
      buf := reader.buf.markDataConsumed (reader.readyMsgOffset + reader.readyMsgSize + reader.trailingDataSize)
      readyMsgOffset := 0
      readyMsgSize := 0
      trailingDataSize := 0 }

/-- `GetDataSize()`: the bytes buffered, a message not finished at the end
of input among them. -/
def getDataSize (reader : TStreamMsgReader σ) : Nat :=
  reader.buf.dataSize

/-- `GetReadyMsg()` with `GetReadyMsgSize()`: the bytes of the ready
message. -/
def getReadyMsg (reader : TStreamMsgReader σ) : Except TStreamFault (List UInt8) :=
  if reader.state ≠ .msgReady then .error (.die "Invalid call to TStreamMsgReader::GetReadyMsg()")
  else if reader.fd < 0 then .error (.die "Invalid file descriptor in TStreamMsgReader::GetReadyMsg()")
  else if reader.readyMsgOffset > reader.buf.dataSize then
    .error (.die "ReadyMsgOffset invalid in TStreamMsgReader::GetReadyMsg()")
  else if reader.readyMsgSize > reader.buf.dataSize - reader.readyMsgOffset then
    .error (.die "ReadyMsgSize invalid in TStreamMsgReader::GetReadyMsg()")
  else if reader.trailingDataSize > reader.buf.dataSize - reader.readyMsgOffset - reader.readyMsgSize then
    .error (.die "TrailingDataSize invalid in TStreamMsgReader::GetReadyMsg()")
  else .ok ((reader.buf.contents.drop reader.readyMsgOffset).take reader.readyMsgSize)

/-- `Reset(fd)`: the subclass resets first; the buffer keeps its storage. -/
def reset (fd : Int) (reader : TStreamMsgReader σ) : TStreamMsgReader σ :=
  { create fd (hooks.handleReset reader.sub) with buf := reader.buf.clear }

/-- A client's call on the reader: `Read()` with what `read()` returned, or
`GetReadyMsg()` to take the ready message and then `ConsumeReadyMsg()`;
the message taken is the call's output. -/
def clientStep (reader : TStreamMsgReader σ) :
    TStreamEvent → Except TStreamFault (Option (List UInt8) × TStreamMsgReader σ)
  | .read result => do pure (none, ← read hooks result reader)
  | .consumeReadyMsg => do
      let msg ← getReadyMsg reader
      pure (some msg, ← consumeReadyMsg hooks reader)

/-! ### One call, as the subclass answers -/

section Calls

variable {hooks} {reader : TStreamMsgReader σ} {sub : σ}

theorem tryAdvanceToNextMsg_noMsgReady
    (next : hooks.getNextMsg reader.buf.contents reader.endOfInput reader.sub = (.noMsgReady, sub)) :
    tryAdvanceToNextMsg hooks reader =
      .ok { reader with sub, state := if reader.endOfInput then .atEnd else .readNeeded } := by
  simp only [tryAdvanceToNextMsg, next]

theorem tryAdvanceToNextMsg_invalid
    (next : hooks.getNextMsg reader.buf.contents reader.endOfInput reader.sub = (.invalid, sub)) :
    tryAdvanceToNextMsg hooks reader = .ok { reader with sub, state := .dataInvalid } := by
  simp only [tryAdvanceToNextMsg, next]

/-- A message inside the data, with no message ready before: the reader
holds it ready. -/
theorem tryAdvanceToNextMsg_msgReady {offset size trailingDataSize : Nat}
    (next : hooks.getNextMsg reader.buf.contents reader.endOfInput reader.sub =
      (.msgReady offset size trailingDataSize, sub))
    (inside : offset + size + trailingDataSize ≤ reader.buf.dataSize)
    (cleared : reader.readyMsgOffset = 0 ∧ reader.readyMsgSize = 0) :
    tryAdvanceToNextMsg hooks reader =
      .ok { reader with sub, readyMsgOffset := offset, readyMsgSize := size, trailingDataSize, state := .msgReady } := by
  have fits : ¬ (offset > reader.buf.dataSize ∨ size > reader.buf.dataSize - offset ∨
      trailingDataSize > reader.buf.dataSize - reader.readyMsgOffset - reader.readyMsgSize) := by
    omega
  simp only [tryAdvanceToNextMsg, next, if_neg fits]

/-- `Read()` of bytes in the state that allows it: space for the read
size, the bytes marked as data, the end of input marked when there are
none, and the subclass asked for a message. -/
theorem read_bytes (data : List UInt8) (ready : reader.state = .readNeeded)
    (positive : 0 < hooks.getNextReadSize reader.sub) :
    read hooks (.bytes data) reader =
      tryAdvanceToNextMsg hooks { reader with
        buf := ((reader.buf.ensureSpace (hooks.getNextReadSize reader.sub)).writeSpace data).markSpaceConsumed
          data.length
        endOfInput := reader.endOfInput || decide (data = []) } := by
  have sizeNonzero : hooks.getNextReadSize reader.sub ≠ 0 := by omega
  have allowed : ¬ reader.state ≠ .readNeeded := not_not.mpr ready
  simp only [read, prepareForRead, if_neg allowed, Foundation.ok_bind, if_neg sizeNonzero, wrRead, processReadResult]
  by_cases empty : data = []
  · subst empty
    simp
  · simp [empty]

/-- A failed `read()` that is retried leaves the data and the state; only
the space made for the read remains. -/
theorem read_retry {errno : TErrno} (retry : errno.isRetry = true) (ready : reader.state = .readNeeded)
    (positive : 0 < hooks.getNextReadSize reader.sub) :
    read hooks (.failed errno) reader = .ok { reader with buf := reader.buf.ensureSpace (hooks.getNextReadSize reader.sub) } := by
  have sizeNonzero : hooks.getNextReadSize reader.sub ≠ 0 := by omega
  have notFatal : errno.isFatalRead = false := by
    cases errno <;> simp_all [TErrno.isRetry, TErrno.isFatalRead]
  have allowed : ¬ reader.state ≠ .readNeeded := not_not.mpr ready
  simp only [read, prepareForRead, if_neg allowed, Foundation.ok_bind, if_neg sizeNonzero, wrRead, notFatal,
    Bool.false_eq_true, if_false, processReadResult, retry, if_true]

/-- `Read()` in a state other than ReadNeeded ends the program. -/
theorem read_of_not_ready (result : TReadResult) (notReady : reader.state ≠ .readNeeded) :
    read hooks result reader = .error (.die "Invalid call to TStreamMsgReader::Read()") := by
  simp only [read, prepareForRead, notReady, ne_eq, not_false_eq_true, if_true]
  rfl

/-- A failed `read()` that is not retried ends the program or throws. -/
theorem read_failed_of_not_retry {errno : TErrno} (notRetry : errno.isRetry = false)
    (ready : reader.state = .readNeeded) (positive : 0 < hooks.getNextReadSize reader.sub) :
    ∃ fault, read hooks (.failed errno) reader = .error fault := by
  have sizeNonzero : hooks.getNextReadSize reader.sub ≠ 0 := by omega
  have allowed : ¬ reader.state ≠ .readNeeded := not_not.mpr ready
  simp only [read, prepareForRead, if_neg allowed, Foundation.ok_bind, if_neg sizeNonzero, wrRead]
  -- a fatal code ends the program in `Wr::read()`, another throws in `ProcessReadResult()`
  by_cases fatal : errno.isFatalRead = true
  · exact ⟨_, by rw [if_pos fatal]; rfl⟩
  · rw [if_neg fatal]
    exact ⟨.systemError errno, by
      simp only [Foundation.ok_bind, processReadResult, notRetry, Bool.false_eq_true, if_false]⟩

/-- Only a reader with a ready message hands one out. -/
theorem getReadyMsg_state {msg : List UInt8} (taken : getReadyMsg reader = .ok msg) : reader.state = .msgReady := by
  by_contra notReady
  rw [getReadyMsg, if_pos notReady] at taken
  cases taken

theorem consumeReadyMsg_eq (ready : reader.state = .msgReady) :
    consumeReadyMsg hooks reader =
      tryAdvanceToNextMsg hooks { reader with
        sub := hooks.beforeConsumeReadyMsg reader.sub
        buf := reader.buf.markDataConsumed (reader.readyMsgOffset + reader.readyMsgSize + reader.trailingDataSize)
        readyMsgOffset := 0
        readyMsgSize := 0
        trailingDataSize := 0 } := by
  simp only [consumeReadyMsg, ready, ne_eq, not_true_eq_false, if_false]

/-- The ready message is the bytes at its offset, when it lies inside the
data of a reader with a descriptor. -/
theorem getReadyMsg_eq (ready : reader.state = .msgReady) (open_ : 0 ≤ reader.fd)
    (inside : reader.readyMsgOffset + reader.readyMsgSize + reader.trailingDataSize ≤ reader.buf.dataSize) :
    getReadyMsg reader = .ok ((reader.buf.contents.drop reader.readyMsgOffset).take reader.readyMsgSize) := by
  have openFd : ¬ reader.fd < 0 := by omega
  simp only [getReadyMsg, ready, ne_eq, not_true_eq_false, if_false, openFd]
  rw [if_neg (by omega), if_neg (by omega), if_neg (by omega)]

end Calls

/-! ### The buffer of a read -/

section Buffer

/-- The buffer after a read of `data` into the space made for `readSize`
bytes: valid, the bytes after the data, and the storage no larger than
the data and the read size need. -/
theorem Valid.read_buf {buf : TBuf UInt8} (valid : buf.Valid) {readSize : Nat} {data : List UInt8}
    (fits : data.length ≤ readSize) :
    (((buf.ensureSpace readSize).writeSpace data).markSpaceConsumed data.length).Valid ∧
      (((buf.ensureSpace readSize).writeSpace data).markSpaceConsumed data.length).contents = buf.contents ++ data ∧
      (((buf.ensureSpace readSize).writeSpace data).markSpaceConsumed data.length).storage.length ≤
        max buf.storage.length (buf.itemCount + readSize) := by
  obtain ⟨ensured, same, room⟩ := valid.ensureSpace readSize
  obtain ⟨filled, appended⟩ := ensured.fill (Nat.le_trans fits room)
  refine ⟨filled, by rw [appended, same], ?_⟩
  rw [TBuf.length_storage_fill ensured (Nat.le_trans fits room)]
  exact valid.storage_ensureSpace_le readSize

end Buffer

end TStreamMsgReader

end Dory.Base
