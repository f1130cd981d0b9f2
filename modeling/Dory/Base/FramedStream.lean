/-
Module: Dory.Base.FramedStream
Purpose: A stream of messages with size fields as a writer puts them on the
  wire (`TFrameFormat.encode`: the size field, most significant byte first,
  then the body), read back by a client of `TStreamMsgWithSizeReader<T>`
  that takes every ready message and calls `Read()` only when the reader
  needs data (`TStreamMsgReader.drain`).  However `read()` cuts the stream,
  the client gets the messages in order; at the end of input the reader
  holds what is left of a message not finished, and at a size field no
  message can have it stops with invalid data, for the reason of that field.
Trusted boundary: none
Main exports: TSizeFieldType.limit, TFrameFormat.encode, TFrameFormat.Carries,
  TFrameFormat.handedOut, TFrameFormat.split_encode, TFrameFormat.decode_encode,
  TStreamMsgReader.drain, TStreamMsgReader.Stopped, TStreamMsgReader.Inv.drain
-/
import Dory.Base.StreamReaderRuns

namespace Dory.Base

open Foundation Foundation.Bytes

/-! ### The writer's side -/

/-- One more than the largest value of the size field's type. -/
def TSizeFieldType.limit (sizeFieldType : TSizeFieldType) : Nat :=
  if sizeFieldType.isSigned then 2 ^ (8 * sizeFieldType.size - 1) else 2 ^ (8 * sizeFieldType.size)

/-- A value of the size field's type, stored in its bytes, reads back as
itself. -/
theorem TSizeFieldType.value_beBytes (sizeFieldType : TSizeFieldType) {value : Nat}
    (fits : value < sizeFieldType.limit) (rest : List UInt8) :
    sizeFieldType.value (beBytes sizeFieldType.size value ++ rest) = value := by
  have field : (beBytes sizeFieldType.size value ++ rest).take sizeFieldType.size = beBytes sizeFieldType.size value :=
    List.take_left' (length_beBytes _ _)
  have full : 256 ^ sizeFieldType.size = 2 ^ (8 * sizeFieldType.size) := by
    rw [pow_mul]
    norm_num
  have half : 2 ^ (8 * sizeFieldType.size - 1) ≤ 2 ^ (8 * sizeFieldType.size) :=
    Nat.pow_le_pow_right (by norm_num) (Nat.sub_le _ _)
  unfold TSizeFieldType.value
  rw [field, beValue_beBytes, full]
  unfold limit at fits
  cases signed : sizeFieldType.isSigned
  · -- unsigned: the value is below the field's range
    rw [signed, if_neg (by decide)] at fits
    rw [if_neg (by decide), Nat.mod_eq_of_lt fits]
  · -- signed: below half the range, the two's complement reading is the value
    rw [signed, if_pos rfl] at fits
    rw [if_pos rfl, Nat.mod_eq_of_lt (lt_of_lt_of_le fits half), toSigned, if_pos fits]

namespace TFrameFormat

variable (format : TFrameFormat)

/-- The size field a writer stores for a body of `bodySize` bytes: the
body's size, with the field's own when the size counts the field. -/
def sizeFieldValue (bodySize : Nat) : Nat :=
  if format.sizeIncludesSizeField then bodySize + format.sizeFieldType.size else bodySize

/-- A message as a writer puts it on the stream: its size field, most
significant byte first, then its body. -/
def encode (body : List UInt8) : List UInt8 :=
  beBytes format.sizeFieldType.size (format.sizeFieldValue body.length) ++ body

/-- A body the format carries: no larger than the largest body, with a size
field that its type holds. -/
def Carries (body : List UInt8) : Prop :=
  body.length ≤ format.maxMsgBodySize ∧ format.sizeFieldValue body.length < format.sizeFieldType.limit

instance (body : List UInt8) : Decidable (format.Carries body) :=
  inferInstanceAs (Decidable (_ ∧ _))

/-- The message the reader hands out for a body: with its size field when
the reader is set to include it. -/
def handedOut (body : List UInt8) : List UInt8 :=
  if format.includeSizeFieldInMsg then format.encode body else body

variable {format} {body : List UInt8}

@[simp] theorem length_encode (body : List UInt8) :
    (format.encode body).length = format.sizeFieldType.size + body.length := by
  simp [encode]

theorem announcedBody_encode (carries : format.Carries body) (rest : List UInt8) :
    format.announcedBody (format.encode body ++ rest) = body.length := by
  unfold announcedBody encode
  rw [List.append_assoc, TSizeFieldType.value_beBytes _ carries.2]
  unfold sizeFieldValue
  split <;> simp

theorem header_encode (carries : format.Carries body) (rest : List UInt8) :
    format.header (format.encode body ++ rest) = .ok body.length := by
  have largest := carries.1
  unfold header
  rw [announcedBody_encode carries, if_neg (by omega), if_neg (by omega), Int.toNat_natCast]

/-- A message the format carries is found whole at the front of the
stream, and handed out as the reader is set to. -/
theorem split_encode (carries : format.Carries body) (rest : List UInt8) :
    format.split (format.encode body ++ rest) = .frame (format.handedOut body) rest := by
  have long : (format.encode body).length = format.sizeFieldType.size + body.length := length_encode body
  have field : (beBytes format.sizeFieldType.size (format.sizeFieldValue body.length)).length =
      format.sizeFieldType.size := length_beBytes _ _
  unfold split
  rw [if_neg (by simp only [List.length_append, long]; omega), header_encode carries]
  dsimp only
  rw [if_neg (by simp only [List.length_append, long]; omega), List.drop_left' long]
  congr 1
  unfold reported handedOut
  split
  · exact List.take_left' long
  · rw [encode, List.append_assoc, List.drop_left' field, List.take_left' rfl]

/-- A message cut short is not yet whole: the reader waits for the rest. -/
theorem split_of_prefix_encode (carries : format.Carries body) {part more : List UInt8}
    (cut : part ++ more = format.encode body) (short : more ≠ []) : format.split part = .incomplete := by
  have shorter : part.length < format.sizeFieldType.size + body.length := by
    have whole := congrArg List.length cut
    rw [List.length_append, length_encode] at whole
    have := List.length_pos_iff.mpr short
    omega
  unfold split
  split_ifs with fieldShort
  · rfl
  · have header : format.header part = .ok body.length := by
      rw [← format.header_append (Nat.le_of_not_lt fieldShort) more, cut, ← List.append_nil (format.encode body),
        header_encode carries]
    rw [header]
    dsimp only
    rw [if_pos shorter]

/-- The messages of a writer, followed by anything, decode to what the
reader hands out for them and then to the decode of what follows.  By
induction on the messages. -/
theorem decode_encode {bodies : List (List UInt8)} (carried : ∀ body ∈ bodies, format.Carries body)
    (tail : List UInt8) :
    decode format.split (bodies.flatMap format.encode ++ tail) =
      (bodies.map format.handedOut ++ (decode format.split tail).1, (decode format.split tail).2) := by
  induction bodies with
  | nil => rfl
  | cons body bodies ih =>
      have carries := carried body List.mem_cons_self
      rw [List.flatMap_cons, List.append_assoc,
        decode_frame format.split_prefixStable (split_encode carries _),
        ih (fun other mem => carried other (List.mem_cons_of_mem body mem))]
      rfl

end TFrameFormat

/-! ### A client that drains the reader -/

namespace TStreamMsgReader

section Drain

variable {σ : Type} (hooks : TStreamMsgHooks σ)

/-- A client of the reader: it takes every message the reader has ready
(`GetReadyMsg()`, then `ConsumeReadyMsg()`), calls `Read()` with the next
of `reads` when the reader needs data, and stops when the reader needs
neither, or when its reads or its fuel run out. -/
def drain : Nat → TStreamMsgReader σ → List (List UInt8) →
    Except TStreamFault (List (List UInt8) × TStreamMsgReader σ)
  | 0, reader, _ => .ok ([], reader)
  | fuel + 1, reader, reads =>
      match reader.state, reads with
      | .msgReady, reads => do
          let msg ← getReadyMsg reader
          let (msgs, last) ← drain fuel (← consumeReadyMsg hooks reader) reads
          pure (msg :: msgs, last)
      | .readNeeded, chunk :: reads => do
          drain fuel (← read hooks (.bytes chunk) reader) reads
      | _, _ => .ok ([], reader)

variable {hooks} {reader after : TStreamMsgReader σ} {fuel : Nat}

theorem drain_take {reads : List (List UInt8)} {msg : List UInt8} {msgs : List (List UInt8)}
    {last : TStreamMsgReader σ} (ready : reader.state = .msgReady) (taken : getReadyMsg reader = .ok msg)
    (consumed : consumeReadyMsg hooks reader = .ok after) (drained : drain hooks fuel after reads = .ok (msgs, last)) :
    drain hooks (fuel + 1) reader reads = .ok (msg :: msgs, last) := by
  simp only [drain, ready, taken, consumed, ok_bind]
  rw [drained]
  rfl

theorem drain_read {chunk : List UInt8} {reads : List (List UInt8)} (needed : reader.state = .readNeeded)
    (readOk : read hooks (.bytes chunk) reader = .ok after) :
    drain hooks (fuel + 1) reader (chunk :: reads) = drain hooks fuel after reads := by
  simp only [drain, needed, readOk]
  rfl

theorem drain_stop {reads : List (List UInt8)} (stopped : reader.state = .atEnd ∨ reader.state = .dataInvalid) :
    drain hooks fuel reader reads = .ok ([], reader) := by
  cases fuel with
  | zero => rfl
  | succ fuel =>
      rcases stopped with ended | invalid
      · simp only [drain, ended]
      · simp only [drain, invalid]

end Drain

/-- Where a drained reader stops, for the way the data it was given ends:
at the end of input, holding what is left of a message not finished, or at
invalid data, for the reason of the size field. -/
def Stopped (reader : TStreamMsgReader TStreamMsgWithSizeReaderBase) :
    TDecodeEnd UInt8 TDataInvalidReason → Prop
  | .pending leftover => reader.state = .atEnd ∧ reader.buf.contents = leftover
  | .invalid reason _ => reader.state = .dataInvalid ∧ reader.sub.getDataInvalidReason = some reason

section Runs

variable {format : TFrameFormat} {readSize cap : Nat} {reader : TStreamMsgReader TStreamMsgWithSizeReaderBase}
variable (positive : 0 < readSize) (roomy : format.sizeFieldType.size + format.maxMsgBodySize + readSize ≤ cap + 1)
include positive roomy

/-- A client that drains a reader with reads of at most the read size, none
empty but the last, gets the messages of all its data, and the reader
stops where that data ends.  By induction on the fuel: taking a message
shortens the data, and each read uses up a chunk. -/
theorem Inv.drain (inv : reader.Inv format readSize cap) (going : reader.endOfInput = false)
    {reads : List (List UInt8)} (fits : ∀ chunk ∈ reads, chunk ≠ [] ∧ chunk.length ≤ readSize) {fuel : Nat}
    (enough : reader.buf.contents.length + reads.flatten.length + reads.length < fuel) :
    ∃ last, drain TStreamMsgWithSizeReaderBase.hooks fuel reader (reads ++ [[]]) =
        .ok ((decode format.split (reader.buf.contents ++ reads.flatten)).1, last) ∧
      last.Inv format readSize cap ∧ last.Stopped (decode format.split (reader.buf.contents ++ reads.flatten)).2 := by
  induction fuel generalizing reader reads with
  | zero => omega
  | succ fuel ih =>
      rcases found : format.split reader.buf.contents with ⟨msg, rest⟩ | _ | reason
      · -- a whole message: the client takes it, and the data is what follows it
        have ready : reader.state = .msgReady := by rw [inv.state, found]; rfl
        obtain ⟨taken, after, consumed, inv', viewed⟩ := inv.consume found
        have contents : after.buf.contents = rest := congrArg TFramedState.pending viewed
        have going' : after.endOfInput = false := (congrArg TFramedState.ended viewed).trans going
        have shorter := format.split_prefixStable.frame_shorter found
        obtain ⟨last, drained, inv'', stopped⟩ := ih inv' going' fits (by rw [contents]; omega)
        have decoded := decode_frame format.split_prefixStable (format.split_prefixStable.frame_append reads.flatten found)
        rw [contents] at drained stopped
        refine ⟨last, ?_, inv'', ?_⟩
        · rw [drain_take ready taken consumed drained, decoded]
        · rwa [decoded]
      · -- no whole message: the client reads the next chunk, or the end of input
        have needed : reader.state = .readNeeded := by rw [inv.state, found, going]; rfl
        cases reads with
        | nil =>
            obtain ⟨after, readOk, inv', contents, ended⟩ := inv.read_end positive roomy needed
            have decoded : decode format.split (reader.buf.contents ++ ([] : List (List UInt8)).flatten) =
                ([], .pending reader.buf.contents) := by
              rw [List.flatten_nil, List.append_nil, decode_incomplete found]
            refine ⟨after, ?_, inv', ?_⟩
            · rw [decoded, List.nil_append, drain_read needed readOk, drain_stop (.inl ended)]
            · rw [decoded]
              exact ⟨ended, contents⟩
        | cons chunk reads =>
            obtain ⟨nonempty, fitsChunk⟩ := fits chunk List.mem_cons_self
            obtain ⟨after, readOk, inv', viewed⟩ := inv.read_bytes positive roomy needed fitsChunk
            have contents : after.buf.contents = reader.buf.contents ++ chunk := congrArg TFramedState.pending viewed
            have going' : after.endOfInput = false := by
              have ended := congrArg TFramedState.ended viewed
              simp only [view, going, nonempty, decide_false, Bool.or_false] at ended
              exact ended
            have shorter : after.buf.contents.length + reads.flatten.length + reads.length < fuel := by
              simp only [contents, List.length_append, List.flatten_cons, List.length_cons] at enough ⊢
              omega
            obtain ⟨last, drained, inv'', stopped⟩ :=
              ih inv' going' (fun other mem => fits other (List.mem_cons_of_mem chunk mem)) shorter
            rw [contents, List.append_assoc] at drained stopped
            refine ⟨last, ?_, inv'', ?_⟩
            · rw [List.cons_append, drain_read needed readOk, drained, List.flatten_cons]
            · rwa [List.flatten_cons]
      · -- a size field no message can have: the client stops at invalid data
        have invalid : reader.state = .dataInvalid := by rw [inv.state, found]; rfl
        have decoded := decode_invalid (format.split_prefixStable.invalid_append reads.flatten found)
        refine ⟨reader, by rw [drain_stop (.inr invalid), decoded], inv, ?_⟩
        rw [decoded]
        exact ⟨invalid, inv.invalidReason found⟩

end Runs

/-- Stream framing does not depend on how the bytes arrive.  A writer's
messages, each of a body the format carries, followed by what is left of
one more message or by a size field no message can have, are read by a new
reader on an open descriptor in chunks of at most the read size, none empty
but the last.  The client that drains the reader gets every message, in
order and as the reader is set to hand it out; then the reader is at its
end, holding what is left of the unfinished message, or has found its data
invalid, for the reason of the size field. -/
theorem drain_encoded (format : TFrameFormat) {fd : Int} (openFd : 0 ≤ fd) {readSize : Nat} (positive : 0 < readSize)
    {bodies : List (List UInt8)} (carried : ∀ body ∈ bodies, format.Carries body) {tail : List UInt8}
    {reads : List (List UInt8)} (cut : reads.flatten = bodies.flatMap format.encode ++ tail)
    (fits : ∀ chunk ∈ reads, chunk ≠ [] ∧ chunk.length ≤ readSize) {fuel : Nat}
    (enough : reads.flatten.length + reads.length < fuel) :
    ∃ reader, TStreamMsgWithSizeReader.create format.sizeFieldType fd format.sizeIncludesSizeField
        format.includeSizeFieldInMsg format.maxMsgBodySize readSize = .ok reader ∧
      (∀ body more, format.Carries body → tail ++ more = format.encode body → more ≠ [] →
        ∃ last, drain TStreamMsgWithSizeReaderBase.hooks fuel reader (reads ++ [[]]) =
            .ok (bodies.map format.handedOut, last) ∧
          last.state = .atEnd ∧ last.getDataSize = tail.length) ∧
      (∀ reason, format.sizeFieldType.size ≤ tail.length → format.header tail = .error reason →
        ∃ last, drain TStreamMsgWithSizeReaderBase.hooks fuel reader (reads ++ [[]]) =
            .ok (bodies.map format.handedOut, last) ∧
          last.state = .dataInvalid ∧ last.sub.getDataInvalidReason = some reason) := by
  obtain ⟨reader, created, inv, viewed⟩ :=
    inv_create format fd readSize (format.sizeFieldType.size + format.maxMsgBodySize + readSize - 1)
  have empty : reader.buf.contents = [] := congrArg TFramedState.pending viewed
  have going : reader.endOfInput = false :=
    (congrArg TFramedState.ended viewed).trans (decide_eq_false (not_lt.mpr openFd))
  have enough' : reader.buf.contents.length + reads.flatten.length + reads.length < fuel := by
    rw [empty, List.length_nil, Nat.zero_add]
    exact enough
  obtain ⟨last, drained, invLast, stopped⟩ := inv.drain positive (roomy_storage format readSize) going fits enough'
  -- the messages come first in the decode of all that was read, then its tail
  rw [empty, List.nil_append, cut, TFrameFormat.decode_encode carried] at drained stopped
  refine ⟨reader, created, ?_, ?_⟩
  · intro body more carries rest short
    have incomplete := TFrameFormat.split_of_prefix_encode carries rest short
    rw [decode_incomplete incomplete, List.append_nil] at drained
    rw [decode_incomplete incomplete] at stopped
    obtain ⟨ended, contents⟩ := stopped
    refine ⟨last, drained, ended, ?_⟩
    rw [getDataSize, TBuf.dataSize, ← TBuf.length_contents invLast.valid, contents]
  · intro reason long rejected
    have invalid : format.split tail = .invalid reason := by
      unfold TFrameFormat.split
      rw [if_neg (by omega), rejected]
    rw [decode_invalid invalid, List.append_nil] at drained
    rw [decode_invalid invalid] at stopped
    exact ⟨last, drained, stopped⟩

/-- Eight-bit size fields, read two bytes at a time: the message `[7, 8]`
and the size field of a one-byte message come in two reads, then the end of
input.  The message is handed out and the size field is left over. -/
theorem drain_encoded_uint8 :
    ∃ reader, TStreamMsgWithSizeReader.create .uint8 3 false false 3 2 = .ok reader ∧
      ∃ last, drain TStreamMsgWithSizeReaderBase.hooks 7 reader [[2, 7], [8, 1], []] = .ok ([[7, 8]], last) ∧
        last.state = .atEnd ∧ last.getDataSize = 1 := by
  have carried : ∀ body ∈ ([[7, 8]] : List (List UInt8)),
      (⟨.uint8, false, false, 3, by decide⟩ : TFrameFormat).Carries body := by decide
  have cut : ([[2, 7], [8, 1]] : List (List UInt8)).flatten =
      ([[7, 8]] : List (List UInt8)).flatMap (⟨.uint8, false, false, 3, by decide⟩ : TFrameFormat).encode ++ [1] := by
    decide
  have fits : ∀ chunk ∈ ([[2, 7], [8, 1]] : List (List UInt8)), chunk ≠ [] ∧ chunk.length ≤ 2 := by decide
  have enough : ([[2, 7], [8, 1]] : List (List UInt8)).flatten.length + ([[2, 7], [8, 1]] : List (List UInt8)).length < 7 := by
    decide
  obtain ⟨reader, created, ending, -⟩ :=
    drain_encoded _ (show (0 : Int) ≤ 3 by decide) (show 0 < 2 by decide) carried cut fits enough
  exact ⟨reader, created, ending [5] [5] (by decide) (by decide) (by decide)⟩

end TStreamMsgReader

end Dory.Base
