/-
Module: Dory.InputDg.Writer
Purpose: How a client writes a datagram: the size checks and the writers of
  any_partition/v0/v0_write_msg.c and partition_key/v0/v0_write_msg.c, and
  dory_find_*_msg_size and dory_write_*_msg of client/libdory_client.c, which
  take the topic as a C string.  An output buffer is the list of its bytes,
  and the writers store the datagram from its start on.  What they store is
  `TDgContents.encode`; with the reader of `Dory.InputDg.Reader` this gives
  the round trip of the input format in both directions.  As in
  `Dory.InputDg.Reader`, an `assert()` is the fault `assertionFailure`.
Trusted boundary: none
Main exports: TDoryStatus, checkMsgSize, computeMsgSize, writeMsg, strlen,
  doryWriteMsg, checkMsgSize_eq_ok_iff, writeMsg_eq_encode, doryWriteMsg_status, doryWriteMsg_ok_iff,
  doryWriteMsg_buildMsgFromDg, buildMsgFromDg_written
-/
import Dory.InputDg.Reader

namespace Dory.InputDg

open Dory.Foundation.Bytes Dory.Foundation.Buffer Dory.Capped

/-! ### Status codes and size checks -/

/-- The codes of client/status_codes.h that the writers return. -/
inductive TDoryStatus where
  | ok
  | bufTooSmall
  | topicTooLarge
  | msgTooLarge
deriving DecidableEq, Repr

/-- `input_dg_any_p_v0_check_msg_size` and `input_dg_p_key_v0_check_msg_size`,
which differ only in the overhead.  The subtractions are of `size_t`: the
first comes after the topic's check and the second only once the key fits,
so neither goes below zero and `Nat` subtraction computes them. -/
def checkMsgSize (msgOverhead topicSize keySize valueSize : Nat) : TDoryStatus :=
  if topicSize > int16Max then .topicTooLarge
  else
    let keyValueSpace := int32Max - msgOverhead - topicSize
    if keySize > keyValueSpace ∨ valueSize > keyValueSpace - keySize then .msgTooLarge else .ok

/-- `input_dg_*_v0_compute_msg_size`: the status of the check, and the size
of the datagram when it passes (0 otherwise). -/
def computeMsgSize (msgOverhead topicSize keySize valueSize : Nat) : TDoryStatus × Nat :=
  let ret := checkMsgSize msgOverhead topicSize keySize valueSize
  if ret ≠ .ok then (ret, 0) else (.ok, msgOverhead + topicSize + keySize + valueSize)

/-- `input_dg_any_p_v0_check_msg_size`. -/
def inputDgAnyPV0CheckMsgSize (topicSize keySize valueSize : Nat) : TDoryStatus :=
  checkMsgSize inputDgAnyPV0MsgOverhead topicSize keySize valueSize

/-- `input_dg_p_key_v0_check_msg_size`. -/
def inputDgPKeyV0CheckMsgSize (topicSize keySize valueSize : Nat) : TDoryStatus :=
  checkMsgSize inputDgPKeyV0MsgOverhead topicSize keySize valueSize

/-- `input_dg_any_p_v0_compute_msg_size`. -/
def inputDgAnyPV0ComputeMsgSize (topicSize keySize valueSize : Nat) : TDoryStatus × Nat :=
  computeMsgSize inputDgAnyPV0MsgOverhead topicSize keySize valueSize

/-- `input_dg_p_key_v0_compute_msg_size`. -/
def inputDgPKeyV0ComputeMsgSize (topicSize keySize valueSize : Nat) : TDoryStatus × Nat :=
  computeMsgSize inputDgPKeyV0MsgOverhead topicSize keySize valueSize

/-! ### The byte-range writers -/

/-- `input_dg_any_p_v0_write_msg` and `input_dg_p_key_v0_write_msg`, which
differ in the API key and in the PartitionKey datagram's partition key after
the flags.  Sizes the check refuses are `assert(0)`.  The casts of the sizes
to `int32_t` and `int16_t` store the same bytes as the sizes, which the check
bounds. -/
def writeMsg (routing : TDgRouting) (resultBuf : List UInt8) (timestamp : Int) (topic key value : List UInt8) :
    Except TInputDgFault (List UInt8) :=
  let (ret, msgSize) := computeMsgSize routing.msgOverhead topic.length key.length value.length
  if ret ≠ .ok then .error .assertionFailure
  else
    pure (overwrite resultBuf 0
      (int32Field msgSize ++ int16Field routing.apiKey ++ int16Field 0 ++ int16Field 0 ++
        routing.routingFields ++ int16Field topic.length ++ topic ++ int64Field timestamp ++
        int32Field key.length ++ key ++ int32Field value.length ++ value))

/-- `input_dg_any_p_v0_write_msg`. -/
def inputDgAnyPV0WriteMsg (resultBuf : List UInt8) (timestamp : Int) (topic key value : List UInt8) :
    Except TInputDgFault (List UInt8) :=
  writeMsg .anyPartition resultBuf timestamp topic key value

/-- `input_dg_p_key_v0_write_msg`. -/
def inputDgPKeyV0WriteMsg (resultBuf : List UInt8) (timestamp partitionKey : Int) (topic key value : List UInt8) :
    Except TInputDgFault (List UInt8) :=
  writeMsg (.partitionKey partitionKey) resultBuf timestamp topic key value

/-! ### The client library -/

/-- `strlen`: the bytes of a C string before its terminating NUL.  The list
is the memory from the string's first byte on. -/
def strlen (s : List UInt8) : Nat := (s.takeWhile fun byte => byte != 0).length

/-- `dory_find_any_partition_msg_size`. -/
def doryFindAnyPartitionMsgSize (topicSize keySize valueSize : Nat) : TDoryStatus × Nat :=
  inputDgAnyPV0ComputeMsgSize topicSize keySize valueSize

/-- `dory_find_partition_key_msg_size`. -/
def doryFindPartitionKeyMsgSize (topicSize keySize valueSize : Nat) : TDoryStatus × Nat :=
  inputDgPKeyV0ComputeMsgSize topicSize keySize valueSize

/-- `dory_write_any_partition_msg` and `dory_write_partition_key_msg`: the
sizes are checked, then the buffer's size, and then the datagram of the
topic's bytes before its NUL is written.  A buffer that is not written is
returned as it was. -/
def doryWriteMsg (routing : TDgRouting) (outBuf topic : List UInt8) (timestamp : Int) (key value : List UInt8) :
    Except TInputDgFault (TDoryStatus × List UInt8) := do
  let topicLen := strlen topic
  let (ret, dgSize) := computeMsgSize routing.msgOverhead topicLen key.length value.length
  if ret ≠ .ok then return (ret, outBuf)
  if outBuf.length < dgSize then return (.bufTooSmall, outBuf)
  let written ← writeMsg routing outBuf timestamp (topic.take topicLen) key value
  return (.ok, written)

/-- `dory_write_any_partition_msg`. -/
def doryWriteAnyPartitionMsg (outBuf topic : List UInt8) (timestamp : Int) (key value : List UInt8) :
    Except TInputDgFault (TDoryStatus × List UInt8) :=
  doryWriteMsg .anyPartition outBuf topic timestamp key value

/-- `dory_write_partition_key_msg`. -/
def doryWritePartitionKeyMsg (outBuf : List UInt8) (partitionKey : Int) (topic : List UInt8) (timestamp : Int)
    (key value : List UInt8) : Except TInputDgFault (TDoryStatus × List UInt8) :=
  doryWriteMsg (.partitionKey partitionKey) outBuf topic timestamp key value

/-! ### What the writers store -/

/-- The check passes exactly when the topic fits its int16 size field and
the datagram fits the int32 size field. -/
theorem checkMsgSize_eq_ok_iff (routing : TDgRouting) (topicSize keySize valueSize : Nat) :
    checkMsgSize routing.msgOverhead topicSize keySize valueSize = .ok ↔
      topicSize ≤ int16Max ∧ routing.msgOverhead + topicSize + keySize + valueSize ≤ int32Max := by
  have overhead : routing.msgOverhead ≤ 32 := by
    cases routing <;> simp only [TDgRouting.msgOverhead] <;> decide
  unfold checkMsgSize int16Max int32Max
  dsimp only
  split
  · simp only [reduceCtorEq, false_iff]
    omega
  · split <;> simp only [reduceCtorEq, false_iff, true_iff] <;> omega

/-- A refused check names the topic when it is too large, and the datagram
otherwise. -/
theorem checkMsgSize_of_refused {msgOverhead topicSize keySize valueSize : Nat}
    (refused : checkMsgSize msgOverhead topicSize keySize valueSize ≠ .ok) :
    checkMsgSize msgOverhead topicSize keySize valueSize =
      if topicSize > int16Max then .topicTooLarge else .msgTooLarge := by
  unfold checkMsgSize at refused ⊢
  dsimp only at refused ⊢
  split
  · rfl
  · rename_i topicFits
    split
    · rfl
    · rename_i sizesFit
      rw [if_neg topicFits, if_neg sizesFit] at refused
      exact absurd rfl refused

theorem computeMsgSize_of_check {msgOverhead topicSize keySize valueSize : Nat}
    (checked : checkMsgSize msgOverhead topicSize keySize valueSize = .ok) :
    computeMsgSize msgOverhead topicSize keySize valueSize =
      (.ok, msgOverhead + topicSize + keySize + valueSize) := by
  simp [computeMsgSize, checked]

theorem computeMsgSize_of_refused {msgOverhead topicSize keySize valueSize : Nat}
    (refused : checkMsgSize msgOverhead topicSize keySize valueSize ≠ .ok) :
    computeMsgSize msgOverhead topicSize keySize valueSize =
      (checkMsgSize msgOverhead topicSize keySize valueSize, 0) := by
  simp [computeMsgSize, refused]

/-- The status `compute_msg_size` returns is the check's. -/
theorem computeMsgSize_fst (msgOverhead topicSize keySize valueSize : Nat) :
    (computeMsgSize msgOverhead topicSize keySize valueSize).1 =
      checkMsgSize msgOverhead topicSize keySize valueSize := by
  by_cases checked : checkMsgSize msgOverhead topicSize keySize valueSize = .ok
  · rw [computeMsgSize_of_check checked, checked]
  · rw [computeMsgSize_of_refused checked]

/-- The size arithmetic of both formats cannot overflow: `compute_msg_size`
returns `DORY_OK` exactly when the topic fits its int16 field and the whole
datagram the int32 size field, its result is then the exact size, and the
writer's casts of the topic, key, value and datagram sizes to `int16_t` and
`int32_t` keep their values. -/
theorem computeMsgSize_lossless (routing : TDgRouting) (topicSize keySize valueSize : Nat) :
    ((computeMsgSize routing.msgOverhead topicSize keySize valueSize).1 = .ok ↔
      topicSize ≤ int16Max ∧ routing.msgOverhead + topicSize + keySize + valueSize ≤ int32Max) ∧
    ((computeMsgSize routing.msgOverhead topicSize keySize valueSize).1 = .ok →
      (computeMsgSize routing.msgOverhead topicSize keySize valueSize).2 =
          routing.msgOverhead + topicSize + keySize + valueSize ∧
        wrapSigned 2 topicSize = topicSize ∧ wrapSigned 4 keySize = keySize ∧
        wrapSigned 4 valueSize = valueSize ∧
        wrapSigned 4 (routing.msgOverhead + topicSize + keySize + valueSize : Nat) =
          (routing.msgOverhead + topicSize + keySize + valueSize : Nat)) := by
  rw [computeMsgSize_fst]
  refine ⟨checkMsgSize_eq_ok_iff routing topicSize keySize valueSize, fun checked => ?_⟩
  obtain ⟨topicFits, sizeFits⟩ := (checkMsgSize_eq_ok_iff routing topicSize keySize valueSize).mp checked
  simp only [int16Max, int32Max] at topicFits sizeFits
  -- every size is below the datagram's, which fits int32
  refine ⟨by rw [computeMsgSize_of_check checked], ?_, ?_, ?_, ?_⟩ <;>
    exact wrapSigned_of_range (by decide) (by norm_num <;> omega) (by norm_num; omega)

/-- A byte-range writer whose sizes pass the check stores the encoding of
what it was given at the start of the buffer. -/
theorem writeMsg_eq_encode {routing : TDgRouting} (resultBuf : List UInt8) (timestamp : Int)
    {topic key value : List UInt8} (checked : checkMsgSize routing.msgOverhead topic.length key.length value.length = .ok) :
    writeMsg routing resultBuf timestamp topic key value =
      .ok (overwrite resultBuf 0 (TDgContents.mk routing timestamp topic key value).encode) := by
  unfold writeMsg
  rw [computeMsgSize_of_check checked]
  simp only [ne_eq, not_true_eq_false, if_false]
  simp only [TDgContents.encode, TDgContents.msgSize, tailBytes, List.append_assoc]
  rfl

/-! ### The client library against the format -/

/-- The topic a C string names is its bytes before the NUL. -/
theorem take_strlen (s : List UInt8) : s.take (strlen s) = s.takeWhile fun byte => byte != 0 :=
  (List.prefix_iff_eq_take.mp (List.takeWhile_prefix _)).symm

theorem length_take_strlen (s : List UInt8) : (s.take (strlen s)).length = strlen s :=
  List.length_take_of_le (List.takeWhile_prefix _).length_le

/-- A name without a NUL, and the NUL that ends it. -/
theorem take_strlen_append_nul {name : List UInt8} (named : 0 ∉ name) (rest : List UInt8) :
    (name ++ 0 :: rest).take (strlen (name ++ 0 :: rest)) = name := by
  have nonzero : ∀ byte ∈ name, (byte != 0) = true := by
    intro byte mem
    have : byte ≠ 0 := fun zero => named (zero ▸ mem)
    simpa using this
  rw [take_strlen, List.takeWhile_append_of_pos nonzero, List.takeWhile_cons_of_neg (by decide),
    List.append_nil]

/-- What a call of `dory_write_*_msg` asks to send: the topic's bytes before
its NUL, and the rest as given. -/
def requested (routing : TDgRouting) (topic : List UInt8) (timestamp : Int) (key value : List UInt8) :
    TDgContents :=
  ⟨routing, timestamp, topic.take (strlen topic), key, value⟩

/-- `dory_write_*_msg` never faults.  A topic too large for its size field
gives `DORY_TOPIC_TOO_LARGE`, a datagram too large for its own
`DORY_MSG_TOO_LARGE`, and a buffer shorter than the datagram
`DORY_BUF_TOO_SMALL`, each with the buffer as it was; otherwise the buffer
starts with the datagram and the rest of it is as it was. -/
theorem doryWriteMsg_status (routing : TDgRouting) (outBuf topic : List UInt8) (timestamp : Int)
    (key value : List UInt8) :
    doryWriteMsg routing outBuf topic timestamp key value =
      .ok (if strlen topic > int16Max then (.topicTooLarge, outBuf)
        else if (requested routing topic timestamp key value).msgSize > int32Max then (.msgTooLarge, outBuf)
        else if outBuf.length < (requested routing topic timestamp key value).msgSize then (.bufTooSmall, outBuf)
        else (.ok, overwrite outBuf 0 (requested routing topic timestamp key value).encode)) := by
  have topicLength := length_take_strlen topic
  have checkedIff := checkMsgSize_eq_ok_iff routing (strlen topic) key.length value.length
  simp only [requested, TDgContents.msgSize, topicLength]
  unfold doryWriteMsg
  dsimp only
  by_cases checked : checkMsgSize routing.msgOverhead (strlen topic) key.length value.length = .ok
  · -- the sizes fit: the buffer's size decides
    obtain ⟨topicFits, sizeFits⟩ := checkedIff.mp checked
    rw [computeMsgSize_of_check checked, if_neg (show ¬ strlen topic > int16Max by omega),
      if_neg (show ¬ routing.msgOverhead + strlen topic + key.length + value.length > int32Max by omega)]
    dsimp only
    rw [if_neg (not_not_intro rfl)]
    split
    · rfl
    · rw [writeMsg_eq_encode outBuf timestamp (by rw [topicLength]; exact checked)]
      rfl
  · -- the check names the first size that does not fit
    have tooLarge := mt checkedIff.mpr checked
    rw [computeMsgSize_of_refused checked]
    dsimp only
    rw [if_pos checked, checkMsgSize_of_refused checked]
    by_cases topicFits : strlen topic > int16Max
    · rw [if_pos topicFits, if_pos topicFits]
      rfl
    · rw [if_neg topicFits, if_neg topicFits,
        if_pos (show routing.msgOverhead + strlen topic + key.length + value.length > int32Max by omega)]
      rfl

@[simp] theorem msgSize_requested (routing : TDgRouting) (topic : List UInt8) (timestamp : Int)
    (key value : List UInt8) :
    (requested routing topic timestamp key value).msgSize =
      routing.msgOverhead + strlen topic + key.length + value.length := by
  simp only [requested, TDgContents.msgSize, length_take_strlen]

/-- The datagram is the first bytes of a buffer it was stored in. -/
theorem take_overwrite_encode (buf : List UInt8) (contents : TDgContents) :
    (overwrite buf 0 contents.encode).take contents.msgSize = contents.encode := by
  have stored : (overwrite buf 0 contents.encode).take (0 + contents.encode.length) = buf.take 0 ++ contents.encode :=
    take_overwrite (Nat.zero_le _)
  rw [Nat.zero_add, length_encode, List.take_zero, List.nil_append] at stored
  exact stored

/-- `dory_write_*_msg` returns `DORY_OK` exactly when the topic fits its
size field, the datagram its own, and the buffer the datagram; the buffer
then starts with the datagram, and its bytes after it are as they were. -/
theorem doryWriteMsg_ok_iff (routing : TDgRouting) (outBuf topic : List UInt8) (timestamp : Int)
    (key value out : List UInt8) :
    doryWriteMsg routing outBuf topic timestamp key value = .ok (.ok, out) ↔
      strlen topic ≤ int16Max ∧ (requested routing topic timestamp key value).msgSize ≤ int32Max ∧
      (requested routing topic timestamp key value).msgSize ≤ outBuf.length ∧
      out.take (requested routing topic timestamp key value).msgSize = (requested routing topic timestamp key value).encode ∧
      out.drop (requested routing topic timestamp key value).msgSize =
        outBuf.drop (requested routing topic timestamp key value).msgSize := by
  generalize asked : requested routing topic timestamp key value = contents
  have total := length_encode contents
  rw [doryWriteMsg_status, asked]
  by_cases topicFits : strlen topic > int16Max
  · rw [if_pos topicFits]
    simp only [Except.ok.injEq, Prod.mk.injEq, reduceCtorEq, false_and, false_iff]
    omega
  rw [if_neg topicFits]
  by_cases sizeFits : contents.msgSize > int32Max
  · rw [if_pos sizeFits]
    simp only [Except.ok.injEq, Prod.mk.injEq, reduceCtorEq, false_and, false_iff]
    omega
  rw [if_neg sizeFits]
  by_cases short : outBuf.length < contents.msgSize
  · rw [if_pos short]
    simp only [Except.ok.injEq, Prod.mk.injEq, reduceCtorEq, false_and, false_iff]
    omega
  rw [if_neg short, Except.ok.injEq, Prod.mk.injEq]
  constructor
  · rintro ⟨-, rfl⟩
    refine ⟨by omega, by omega, by omega, take_overwrite_encode outBuf contents, ?_⟩
    simp only [overwrite, Nat.zero_add, total, List.take_zero, List.nil_append,
      List.drop_append_of_le_length (le_of_eq total.symm), List.drop_of_length_le (le_of_eq total), List.nil_append]
  · rintro ⟨-, -, -, head, tail⟩
    refine ⟨rfl, ?_⟩
    rw [← List.take_append_drop contents.msgSize out, head, tail, overwrite, Nat.zero_add, total,
      List.take_zero, List.nil_append]

/-- A datagram a client wrote, as many bytes as `dory_find_*_msg_size`
reports, is read back as a message holding what the client asked to send,
when the topic and the key are not empty and the pool has room for the key
and the value. -/
theorem doryWriteMsg_buildMsgFromDg {routing : TDgRouting} {outBuf topic : List UInt8} {timestamp : Int}
    {key value out : List UInt8} (pool : TPool)
    (written : doryWriteMsg routing outBuf topic timestamp key value = .ok (.ok, out))
    (timestampFits : -2 ^ 63 ≤ timestamp ∧ timestamp < 2 ^ 63)
    (partitionKeyFits : ∀ partitionKey, routing = .partitionKey partitionKey →
      -2 ^ 31 ≤ partitionKey ∧ partitionKey < 2 ^ 31)
    (named : 0 < strlen topic) (keyed : key ≠ [])
    (room : key.length + value.length ≤ pool.freeCount * pool.getDataSize) :
    ∃ rest msg, buildMsgFromDg (out.take (computeMsgSize routing.msgOverhead (strlen topic) key.length value.length).2)
        pool = .ok { msg := some msg, pool := rest, discards := [] } ∧
      msg.Holds (requested routing topic timestamp key value) pool.getDataSize := by
  rw [doryWriteMsg_status, msgSize_requested] at written
  split at written
  · cases written
  rename_i topicFits
  split at written
  · cases written
  rename_i sizeFits
  split at written
  · cases written
  have stored : overwrite outBuf 0 (requested routing topic timestamp key value).encode = out :=
    (Prod.mk.inj (Except.ok.inj written)).2
  have checked := (checkMsgSize_eq_ok_iff routing (strlen topic) key.length value.length).mpr
    ⟨by omega, by omega⟩
  have topicLength : (requested routing topic timestamp key value).topic.length = strlen topic :=
    length_take_strlen topic
  have fits : (requested routing topic timestamp key value).Fits :=
    ⟨by rw [topicLength]; exact named, by rw [topicLength]; omega, by rw [msgSize_requested]; omega,
      timestampFits, partitionKeyFits⟩
  rw [computeMsgSize_of_check checked, ← stored, ← msgSize_requested routing topic timestamp, take_overwrite_encode]
  exact buildMsgFromDg_encode_ok fits keyed room

/-- Every datagram the reader makes a message from is what the byte-range
writer of its routing type stores for the contents the message holds, and
what `dory_write_*_msg` stores for them when the topic has no NUL. -/
theorem buildMsgFromDg_written {dg : List UInt8} {pool rest : TPool} {msg : TCreatedMsg}
    (built : buildMsgFromDg dg pool = .ok { msg := some msg, pool := rest, discards := [] }) :
    ∃ contents : TDgContents, msg.Holds contents pool.getDataSize ∧
      (∀ resultBuf, writeMsg contents.routing resultBuf contents.timestamp contents.topic contents.key
        contents.value = .ok (overwrite resultBuf 0 dg)) ∧
      (0 ∉ contents.topic → ∀ outBuf, dg.length ≤ outBuf.length →
        doryWriteMsg contents.routing outBuf (contents.topic ++ [0]) contents.timestamp contents.key
          contents.value = .ok (.ok, overwrite outBuf 0 dg)) := by
  obtain ⟨contents, fits, rfl, holds⟩ := buildMsgFromDg_sound built
  have checked := (checkMsgSize_eq_ok_iff contents.routing _ _ _).mpr ⟨fits.topicFits, fits.sizeFits⟩
  refine ⟨contents, holds, fun resultBuf => writeMsg_eq_encode resultBuf contents.timestamp checked, ?_⟩
  intro unnamed outBuf long
  -- the C string names exactly the topic
  have topicRead := take_strlen_append_nul unnamed []
  have topicLength : strlen (contents.topic ++ [0]) = contents.topic.length := by
    rw [← length_take_strlen, topicRead]
  have asked : requested contents.routing (contents.topic ++ [0]) contents.timestamp contents.key contents.value =
      contents := by
    rw [requested, topicRead]
  have total := length_encode contents
  have sizeFits := fits.sizeFits
  unfold TDgContents.msgSize at total sizeFits
  rw [doryWriteMsg_status, asked, if_neg (by rw [topicLength]; exact not_lt.mpr fits.topicFits),
    if_neg (by unfold TDgContents.msgSize; omega), if_neg (by unfold TDgContents.msgSize; omega)]

/-- The input format's round trip: what a client writes with a nonempty
topic and key is read back as a message holding it, and what the reader
makes a message from is what the writers store for the contents it holds. -/
theorem doryWriteMsg_round_trip :
    (∀ (routing : TDgRouting) (outBuf topic : List UInt8) (timestamp : Int) (key value out : List UInt8)
        (pool : TPool),
      doryWriteMsg routing outBuf topic timestamp key value = .ok (.ok, out) →
      (-2 ^ 63 ≤ timestamp ∧ timestamp < 2 ^ 63) →
      (∀ partitionKey, routing = .partitionKey partitionKey → -2 ^ 31 ≤ partitionKey ∧ partitionKey < 2 ^ 31) →
      0 < strlen topic → key ≠ [] → key.length + value.length ≤ pool.freeCount * pool.getDataSize →
      ∃ rest msg, buildMsgFromDg (out.take (computeMsgSize routing.msgOverhead (strlen topic) key.length
          value.length).2) pool = .ok { msg := some msg, pool := rest, discards := [] } ∧
        msg.Holds (requested routing topic timestamp key value) pool.getDataSize) ∧
    (∀ (dg : List UInt8) (pool rest : TPool) (msg : TCreatedMsg),
      buildMsgFromDg dg pool = .ok { msg := some msg, pool := rest, discards := [] } →
      ∃ contents : TDgContents, msg.Holds contents pool.getDataSize ∧
        (∀ resultBuf, writeMsg contents.routing resultBuf contents.timestamp contents.topic contents.key
          contents.value = .ok (overwrite resultBuf 0 dg)) ∧
        (0 ∉ contents.topic → ∀ outBuf, dg.length ≤ outBuf.length →
          doryWriteMsg contents.routing outBuf (contents.topic ++ [0]) contents.timestamp contents.key
            contents.value = .ok (.ok, overwrite outBuf 0 dg))) :=
  ⟨fun _ _ _ _ _ _ _ pool written timestampFits partitionKeyFits named keyed room =>
      doryWriteMsg_buildMsgFromDg pool written timestampFits partitionKeyFits named keyed room,
    fun _ _ _ _ built => buildMsgFromDg_written built⟩

/-- The forward half at the topic `t`, key `[1]`, value `[2]`, a 40-byte
buffer and a pool of four 24-byte blocks: the datagram written is read back
as a message that holds what was asked for. -/
theorem doryWriteMsg_round_trip_t :
    ∃ out, doryWriteMsg .anyPartition (List.replicate 40 0) [116, 0] 0 [1] [2] = .ok (.ok, out) ∧
      ∃ rest msg, buildMsgFromDg (out.take (computeMsgSize TDgRouting.anyPartition.msgOverhead (strlen [116, 0]) 1
          1).2) (TPool.create 24 4) = .ok { msg := some msg, pool := rest, discards := [] } ∧
        msg.Holds (requested .anyPartition [116, 0] 0 [1] [2]) (TPool.create 24 4).getDataSize := by
  obtain ⟨out, written⟩ : ∃ out, doryWriteMsg .anyPartition (List.replicate 40 0) [116, 0] 0 [1] [2] =
      .ok (.ok, out) := ⟨_, rfl⟩
  refine ⟨out, written, doryWriteMsg_round_trip.1 .anyPartition _ _ 0 [1] [2] out (TPool.create 24 4) written
    (by norm_num) (fun _ routed => nomatch routed) (by decide) (by simp) (by decide)⟩

/-- The empty C string as the topic: `dory_write_any_partition_msg` stores
the datagram and returns `DORY_OK`, and the reader finds a topic size of 0
and discards the datagram, with room in the pool. -/
theorem doryWriteAnyPartitionMsg_empty_topic :
    ∃ out, doryWriteAnyPartitionMsg (List.replicate 30 0) [0] 0 [1] [2] = .ok (.ok, out) ∧
      doryFindAnyPartitionMsgSize (strlen [0]) 1 1 = (.ok, 30) ∧
      buildMsgFromDg (out.take 30) (TPool.create 24 4) =
        .ok (discardMalformedMsg (out.take 30) (TPool.create 24 4)) := by
  refine ⟨[0, 0, 0, 30, 1, 0, 0, 0, 0, 0, 0, 0, 0, 0, 0, 0, 0, 0, 0, 0, 0, 0, 0, 1, 1, 0, 0, 0, 1, 2],
    by decide, by decide, ?_⟩
  -- the reader runs on the 30 bytes
  set_option maxRecDepth 4000 in rfl

end Dory.InputDg
