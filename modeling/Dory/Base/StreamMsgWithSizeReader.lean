/-
Module: Dory.Base.StreamMsgWithSizeReader
Purpose: `Base::TStreamMsgWithSizeReader<T>` (base/stream_msg_with_size_reader.{h,cc}):
  the subclass of `TStreamMsgReader` for messages that each start with a
  size field of the integer type `T`, in network byte order.  The size
  counts the field itself or not; the message handed to the client holds
  the field or not; a negative signed size, a size that counts the field
  but is smaller than it, and a body above `MaxMsgBodySize` make the data
  invalid.  `GetNextMsg()` reads the size field once per message and keeps
  the body size in `OptMsgBodySize` until the message is consumed; sums of
  `size_t` wrap around.  `TFrameFormat` states the wire format on its own
  terms, as a splitter of the `Framing` library (`TFrameFormat.split`), and
  `getNextMsg_eq` shows that the subclass answers what the format says.
  Release builds define `NDEBUG`, so the asserts of the subclass are not
  checked.
Trusted boundary: none
Main exports: TSizeFieldType, chooseSizeFieldReadFn, TDataInvalidReason,
  TStreamMsgWithSizeReaderBase, TStreamMsgWithSizeReaderBase.getNextMsg,
  TStreamMsgWithSizeReaderBase.hooks, TStreamMsgWithSizeReader.create,
  TFrameFormat, TFrameFormat.split, TFrameFormat.split_prefixStable,
  TStreamMsgWithSizeReaderBase.getNextMsg_eq
-/
import Dory.Base.StreamMsgReader
import Dory.Foundation.Bytes
import Dory.Foundation.Framing

namespace Dory.Base

open Foundation Foundation.Bytes

/-- `size_t` addition, which wraps around. -/
def sizeAdd (a b : Nat) : Nat :=
  (a + b) % 2 ^ 64

/-- The integer type `T` of the size field. -/
inductive TSizeFieldType where
  | int8
  | uint8
  | int16
  | uint16
  | int32
  | uint32
  | int64
  | uint64
deriving DecidableEq, Repr

namespace TSizeFieldType

/-- `sizeof(T)`. -/
def size : TSizeFieldType → Nat
  | int8 | uint8 => 1
  | int16 | uint16 => 2
  | int32 | uint32 => 4
  | int64 | uint64 => 8

/-- `std::is_signed<T>::value`. -/
def isSigned : TSizeFieldType → Bool
  | int8 | int16 | int32 | int64 => true
  | uint8 | uint16 | uint32 | uint64 => false

theorem size_pos (sizeFieldType : TSizeFieldType) : 0 < sizeFieldType.size := by
  cases sizeFieldType <;> decide

end TSizeFieldType

/-! ### Reading the size field -/

/-- The unsigned size field of `width` bytes at `field_loc`. -/
def readUnsignedSizeField (width : Nat) (fieldLoc : List UInt8) : Option Nat :=
  some (beValue (fieldLoc.take width))

/-- The signed size field of `width` bytes at `field_loc`: none when the
value is negative. -/
def readSignedSizeField (width : Nat) (fieldLoc : List UInt8) : Option Nat :=
  let size := toSigned width (beValue (fieldLoc.take width))
  if size < 0 then none else some size.toNat

/-- `ReadUnsigned8BitSizeField()`. -/
def readUnsigned8BitSizeField : List UInt8 → Option Nat := readUnsignedSizeField 1
/-- `ReadUnsigned16BitSizeField()`. -/
def readUnsigned16BitSizeField : List UInt8 → Option Nat := readUnsignedSizeField 2
/-- `ReadUnsigned32BitSizeField()`. -/
def readUnsigned32BitSizeField : List UInt8 → Option Nat := readUnsignedSizeField 4
/-- `ReadUnsigned64BitSizeField()`. -/
def readUnsigned64BitSizeField : List UInt8 → Option Nat := readUnsignedSizeField 8
/-- `ReadSigned8BitSizeField()`. -/
def readSigned8BitSizeField : List UInt8 → Option Nat := readSignedSizeField 1
/-- `ReadSigned16BitSizeField()`. -/
def readSigned16BitSizeField : List UInt8 → Option Nat := readSignedSizeField 2
/-- `ReadSigned32BitSizeField()`. -/
def readSigned32BitSizeField : List UInt8 → Option Nat := readSignedSizeField 4
/-- `ReadSigned64BitSizeField()`. -/
def readSigned64BitSizeField : List UInt8 → Option Nat := readSignedSizeField 8

/-- `ChooseSizeFieldReadFn()`. -/
def chooseSizeFieldReadFn (sizeFieldSize : Nat) (sizeFieldIsSigned : Bool) :
    Except TStreamFault (List UInt8 → Option Nat) :=
  if sizeFieldSize ≠ 1 ∧ sizeFieldSize ≠ 2 ∧ sizeFieldSize ≠ 4 ∧ sizeFieldSize ≠ 8 then
    .error (.die "Bad value for size_field_size in TStreamMsgWithSizeReaderBase")
  else
    match sizeFieldSize with
    | 2 => .ok (if sizeFieldIsSigned then readSigned16BitSizeField else readUnsigned16BitSizeField)
    | 4 => .ok (if sizeFieldIsSigned then readSigned32BitSizeField else readUnsigned32BitSizeField)
    | 8 => .ok (if sizeFieldIsSigned then readSigned64BitSizeField else readUnsigned64BitSizeField)
    | _ => .ok (if sizeFieldIsSigned then readSigned8BitSizeField else readUnsigned8BitSizeField)

/-- `TStreamMsgWithSizeReaderBase::TDataInvalidReason`. -/
inductive TDataInvalidReason where
  | invalidSizeField
  | msgBodyTooLarge
deriving DecidableEq, Repr

/-! ### The subclass -/

/-- The fields of `TStreamMsgWithSizeReaderBase`. -/
structure TStreamMsgWithSizeReaderBase where
  sizeFieldSize : Nat
  sizeFieldIsSigned : Bool
  sizeIncludesSizeField : Bool
  includeSizeFieldInMsg : Bool
  sizeFieldReadFn : List UInt8 → Option Nat
  maxMsgBodySize : Nat
  preferredReadSize : Nat
  optMsgBodySize : Option Nat := none
  optDataInvalidReason : Option TDataInvalidReason := none

namespace TStreamMsgWithSizeReaderBase

/-- `GetNextReadSize()`. -/
def getNextReadSize (base : TStreamMsgWithSizeReaderBase) : Nat :=
  base.preferredReadSize

/-- The first half of `GetNextMsg()`, once the data holds a size field:
the body size, read from the size field unless `OptMsgBodySize` holds it
already, or why the data is invalid. -/
def knowMsgBodySize (data : List UInt8) (base : TStreamMsgWithSizeReaderBase) :
    Except TDataInvalidReason TStreamMsgWithSizeReaderBase :=
  match base.optMsgBodySize with
  | some _ => .ok base
  | none =>
      match base.sizeFieldReadFn data with
      -- a signed size field holds a negative value
      | none => .error .invalidSizeField
      | some size =>
          if base.sizeIncludesSizeField ∧ size < base.sizeFieldSize then .error .invalidSizeField
          else if size > base.maxMsgBodySize ∧
              (!base.sizeIncludesSizeField ∨ size - base.maxMsgBodySize > base.sizeFieldSize) then
            .error .msgBodyTooLarge
          else
            .ok { base with
              optMsgBodySize := some (if base.sizeIncludesSizeField then size - base.sizeFieldSize else size) }

/-- `GetNextMsg()`: the body size is read from the size field once, then
kept until the message is consumed. -/
def getNextMsg (data : List UInt8) (_atEndOfInput : Bool) (base : TStreamMsgWithSizeReaderBase) :
    TGetMsgResult × TStreamMsgWithSizeReaderBase :=
  let dataSize := data.length
  if dataSize < base.sizeFieldSize then (.noMsgReady, base)
  else
    match base.knowMsgBodySize data with
    | .error reason => (.invalid, { base with optDataInvalidReason := some reason })
    | .ok base =>
        let bodySize := base.optMsgBodySize.getD 0
        if dataSize < sizeAdd base.sizeFieldSize bodySize then (.noMsgReady, base)
        else if base.includeSizeFieldInMsg then (.msgReady 0 (sizeAdd bodySize base.sizeFieldSize) 0, base)
        else (.msgReady base.sizeFieldSize bodySize 0, base)

/-- `GetDataInvalidReason()`. -/
def getDataInvalidReason (base : TStreamMsgWithSizeReaderBase) : Option TDataInvalidReason :=
  base.optDataInvalidReason

/-- `HandleReset()`. -/
def handleReset (base : TStreamMsgWithSizeReaderBase) : TStreamMsgWithSizeReaderBase :=
  { base with optMsgBodySize := none, optDataInvalidReason := none }

/-- `BeforeConsumeReadyMsg()`. -/
def beforeConsumeReadyMsg (base : TStreamMsgWithSizeReaderBase) : TStreamMsgWithSizeReaderBase :=
  { base with optMsgBodySize := none }

/-- The subclass's overrides. -/
def hooks : TStreamMsgHooks TStreamMsgWithSizeReaderBase :=
  { getNextReadSize, getNextMsg, handleReset, beforeConsumeReadyMsg }

/-- The constructor `TStreamMsgWithSizeReaderBase(fd, size_field_size,
...)`: the base reader on `fd`, and the read function for the size field. -/
def create (fd : Int) (sizeFieldSize : Nat) (sizeFieldIsSigned sizeIncludesSizeField includeSizeFieldInMsg : Bool)
    (maxMsgBodySize preferredReadSize : Nat) :
    Except TStreamFault (TStreamMsgReader TStreamMsgWithSizeReaderBase) := do
  let sizeFieldReadFn ← chooseSizeFieldReadFn sizeFieldSize sizeFieldIsSigned
  pure (TStreamMsgReader.create fd
    { sizeFieldSize, sizeFieldIsSigned, sizeIncludesSizeField, includeSizeFieldInMsg, sizeFieldReadFn,
      maxMsgBodySize, preferredReadSize })

end TStreamMsgWithSizeReaderBase

/-- `SetMaxMsgBodySize(size)`. -/
def TStreamMsgReader.setMaxMsgBodySize (size : Nat) (reader : TStreamMsgReader TStreamMsgWithSizeReaderBase) :
    TStreamMsgReader TStreamMsgWithSizeReaderBase :=
  { reader with sub := { reader.sub with maxMsgBodySize := size } }

/-- The constructor `TStreamMsgWithSizeReader<T>(fd, size_includes_size_field,
include_size_field_in_msg, max_msg_body_size, preferred_read_size)`. -/
def TStreamMsgWithSizeReader.create (sizeFieldType : TSizeFieldType) (fd : Int)
    (sizeIncludesSizeField includeSizeFieldInMsg : Bool) (maxMsgBodySize preferredReadSize : Nat) :
    Except TStreamFault (TStreamMsgReader TStreamMsgWithSizeReaderBase) :=
  TStreamMsgWithSizeReaderBase.create fd sizeFieldType.size sizeFieldType.isSigned sizeIncludesSizeField
    includeSizeFieldInMsg maxMsgBodySize preferredReadSize

/-! ### The wire format -/

/-- The integer a size field of type `T` stores at the front of `bytes`. -/
def TSizeFieldType.value (sizeFieldType : TSizeFieldType) (bytes : List UInt8) : Int :=
  if sizeFieldType.isSigned then toSigned sizeFieldType.size (beValue (bytes.take sizeFieldType.size))
  else beValue (bytes.take sizeFieldType.size)

/-- A stream of messages with size fields: the field's type, whether the
size counts the field, whether a message handed out holds its field, and
the largest body.  A body together with its field fits a `size_t`. -/
structure TFrameFormat where
  sizeFieldType : TSizeFieldType
  sizeIncludesSizeField : Bool
  includeSizeFieldInMsg : Bool
  maxMsgBodySize : Nat
  maxFits : maxMsgBodySize + sizeFieldType.size < 2 ^ 64

namespace TFrameFormat

/-- The length of the body that the size field at the front of `bytes`
announces. -/
def announcedBody (format : TFrameFormat) (bytes : List UInt8) : Int :=
  if format.sizeIncludesSizeField then format.sizeFieldType.value bytes - format.sizeFieldType.size
  else format.sizeFieldType.value bytes

/-- The body length of the message at the front, or why there is none: a
negative body is an invalid size field, a body above the maximum too
large. -/
def header (format : TFrameFormat) (bytes : List UInt8) : Except TDataInvalidReason Nat :=
  if format.announcedBody bytes < 0 then .error .invalidSizeField
  else if (format.maxMsgBodySize : Int) < format.announcedBody bytes then .error .msgBodyTooLarge
  else .ok (format.announcedBody bytes).toNat

/-- The message handed out for a frame whose body is `body` bytes long. -/
def reported (format : TFrameFormat) (bytes : List UInt8) (body : Nat) : List UInt8 :=
  if format.includeSizeFieldInMsg then bytes.take (format.sizeFieldType.size + body)
  else (bytes.drop format.sizeFieldType.size).take body

/-- What the front of a stream holds: a whole message, too few bytes for
the size field or for the body it announces, or a size field no message
can have. -/
def split (format : TFrameFormat) (bytes : List UInt8) : TSplit UInt8 (List UInt8) TDataInvalidReason :=
  if bytes.length < format.sizeFieldType.size then .incomplete
  else
    match format.header bytes with
    | .error reason => .invalid reason
    | .ok body =>
        if bytes.length < format.sizeFieldType.size + body then .incomplete
        else .frame (format.reported bytes body) (bytes.drop (format.sizeFieldType.size + body))

/-- A body the format accepts is no larger than the maximum. -/
theorem header_le (format : TFrameFormat) {bytes : List UInt8} {body : Nat} (header : format.header bytes = .ok body) :
    body ≤ format.maxMsgBodySize := by
  unfold TFrameFormat.header at header
  split_ifs at header with negative tooLarge
  cases header
  omega

/-- The size field is read from its own bytes only. -/
theorem value_append (sizeFieldType : TSizeFieldType) {bytes : List UInt8} (long : sizeFieldType.size ≤ bytes.length)
    (more : List UInt8) : sizeFieldType.value (bytes ++ more) = sizeFieldType.value bytes := by
  unfold TSizeFieldType.value
  rw [List.take_append_of_le_length long]

theorem header_append (format : TFrameFormat) {bytes : List UInt8} (long : format.sizeFieldType.size ≤ bytes.length)
    (more : List UInt8) : format.header (bytes ++ more) = format.header bytes := by
  unfold header announcedBody
  rw [value_append format.sizeFieldType long]

/-- The format reads only what it needs: the `Framing` library applies. -/
theorem split_prefixStable (format : TFrameFormat) : PrefixStable format.split where
  frame_append := by
    intro bytes rest item more found
    unfold split at found ⊢
    split_ifs at found with short
    rcases header : format.header bytes with reason | body
    · rw [header] at found
      cases found
    · rw [header] at found
      dsimp only at found
      split_ifs at found with shortBody
      cases found
      have long : format.sizeFieldType.size ≤ bytes.length := Nat.le_of_not_lt short
      rw [if_neg (by simp only [List.length_append]; omega), header_append format long, header]
      dsimp only
      rw [if_neg (by simp only [List.length_append]; omega), List.drop_append_of_le_length (by omega)]
      congr 1
      unfold reported
      split
      · rw [List.take_append_of_le_length (by omega)]
      · rw [List.drop_append_of_le_length long, List.take_append_of_le_length (by simp only [List.length_drop]; omega)]
  invalid_append := by
    intro bytes reason more found
    unfold split at found ⊢
    split_ifs at found with short
    have long : format.sizeFieldType.size ≤ bytes.length := Nat.le_of_not_lt short
    rw [if_neg (by simp only [List.length_append]; omega), header_append format long]
    rcases header : format.header bytes with reason' | body
    · rw [header] at found
      exact found
    · rw [header] at found
      dsimp only at found
      split_ifs at found
  frame_shorter := by
    intro bytes rest item found
    have positive := format.sizeFieldType.size_pos
    unfold split at found
    split_ifs at found with short
    rcases header : format.header bytes with reason | body
    · rw [header] at found
      cases found
    · rw [header] at found
      dsimp only at found
      split_ifs at found with shortBody
      cases found
      simp only [List.length_drop]
      omega

end TFrameFormat

/-! ### The subclass reads the format -/

/-- For the size and signedness of an integer type, `ChooseSizeFieldReadFn()`
picks the read function of that type. -/
theorem chooseSizeFieldReadFn_type (sizeFieldType : TSizeFieldType) :
    chooseSizeFieldReadFn sizeFieldType.size sizeFieldType.isSigned =
      .ok (if sizeFieldType.isSigned then readSignedSizeField sizeFieldType.size
        else readUnsignedSizeField sizeFieldType.size) := by
  cases sizeFieldType <;> rfl

/-- A size field read by the function `ChooseSizeFieldReadFn()` picks for
its type is the integer the field stores, when that is not negative. -/
theorem sizeFieldReadFn_eq {sizeFieldType : TSizeFieldType} {readFn : List UInt8 → Option Nat}
    (chosen : chooseSizeFieldReadFn sizeFieldType.size sizeFieldType.isSigned = .ok readFn) (data : List UInt8) :
    readFn data = if sizeFieldType.value data < 0 then none else some (sizeFieldType.value data).toNat := by
  rw [chooseSizeFieldReadFn_type, Except.ok.injEq] at chosen
  subst chosen
  unfold TSizeFieldType.value
  cases sizeFieldType.isSigned
  · simp [readUnsignedSizeField]
  · rfl

/-- The constructor of `TStreamMsgWithSizeReader<T>` does not fail: the
reader on `fd`, with the read function of `T` and no size known yet. -/
theorem TStreamMsgWithSizeReader.create_eq (sizeFieldType : TSizeFieldType) (fd : Int)
    (sizeIncludesSizeField includeSizeFieldInMsg : Bool) (maxMsgBodySize preferredReadSize : Nat) :
    TStreamMsgWithSizeReader.create sizeFieldType fd sizeIncludesSizeField includeSizeFieldInMsg maxMsgBodySize
        preferredReadSize =
      .ok (TStreamMsgReader.create fd
        { sizeFieldSize := sizeFieldType.size, sizeFieldIsSigned := sizeFieldType.isSigned, sizeIncludesSizeField,
          includeSizeFieldInMsg,
          sizeFieldReadFn := if sizeFieldType.isSigned then readSignedSizeField sizeFieldType.size
            else readUnsignedSizeField sizeFieldType.size,
          maxMsgBodySize, preferredReadSize }) := by
  simp only [TStreamMsgWithSizeReader.create, TStreamMsgWithSizeReaderBase.create, chooseSizeFieldReadFn_type]
  rfl

namespace TStreamMsgWithSizeReaderBase

/-- The subclass reads a stream in `format`. -/
structure Reads (format : TFrameFormat) (base : TStreamMsgWithSizeReaderBase) : Prop where
  sizeFieldSize : base.sizeFieldSize = format.sizeFieldType.size
  sizeIncludesSizeField : base.sizeIncludesSizeField = format.sizeIncludesSizeField
  includeSizeFieldInMsg : base.includeSizeFieldInMsg = format.includeSizeFieldInMsg
  maxMsgBodySize : base.maxMsgBodySize = format.maxMsgBodySize
  sizeFieldReadFn :
    chooseSizeFieldReadFn format.sizeFieldType.size format.sizeFieldType.isSigned = .ok base.sizeFieldReadFn

/-- A body size kept in `OptMsgBodySize` is the one that the size field at
the front of `data` announces. -/
def Knows (format : TFrameFormat) (data : List UInt8) (base : TStreamMsgWithSizeReaderBase) : Prop :=
  ∀ body, base.optMsgBodySize = some body → format.sizeFieldType.size ≤ data.length ∧ format.header data = .ok body

variable {format : TFrameFormat} {base : TStreamMsgWithSizeReaderBase} {data : List UInt8}

/-- The two optional fields are all that reading changes. -/
theorem Reads.withOpt (reads : base.Reads format) (cache : Option Nat) (reason : Option TDataInvalidReason) :
    ({ base with optMsgBodySize := cache, optDataInvalidReason := reason } : TStreamMsgWithSizeReaderBase).Reads
      format :=
  ⟨reads.sizeFieldSize, reads.sizeIncludesSizeField, reads.includeSizeFieldInMsg, reads.maxMsgBodySize,
    reads.sizeFieldReadFn⟩

theorem knows_none (data : List UInt8) (reason : Option TDataInvalidReason) :
    ({ base with optMsgBodySize := none, optDataInvalidReason := reason } : TStreamMsgWithSizeReaderBase).Knows
      format data := by
  intro body known
  cases known

/-- The first half of `GetNextMsg()` finds the body size the format
announces, or why there is none. -/
theorem knowMsgBodySize_eq (reads : base.Reads format) (knows : base.Knows format data) :
    base.knowMsgBodySize data =
      match format.header data with
      | .error reason => .error reason
      | .ok body => .ok { base with optMsgBodySize := some body } := by
  unfold knowMsgBodySize
  rcases cached : base.optMsgBodySize with _ | body
  · -- the size field is read now: the code's checks, against the announced body
    dsimp only
    rw [sizeFieldReadFn_eq reads.sizeFieldReadFn, reads.sizeFieldSize, reads.sizeIncludesSizeField,
      reads.maxMsgBodySize]
    unfold TFrameFormat.header TFrameFormat.announcedBody
    generalize format.sizeFieldType.value data = value
    by_cases negative : value < 0
    · rw [if_pos negative, if_pos (by split <;> omega)]
    · rw [if_neg negative]
      dsimp only
      cases format.sizeIncludesSizeField
      all_goals simp only [Bool.false_eq_true, Bool.not_false, Bool.not_true, true_and, false_and, true_or,
        false_or, and_true, if_false, if_true]
      all_goals split_ifs
      -- the branches agree, or their conditions contradict each other
      all_goals first | rfl | omega | (dsimp only; congr; omega)
  · -- known before: the field announced it
    obtain ⟨-, header⟩ := knows body cached
    rw [header]
    dsimp only
    congr
    cases base
    simp_all

/-- `GetNextMsg()` answers what the format finds at the front of the data,
keeping the body size once it is known. -/
theorem getNextMsg_eq (reads : base.Reads format) (knows : base.Knows format data) (atEndOfInput : Bool) :
    base.getNextMsg data atEndOfInput =
      if data.length < format.sizeFieldType.size then (.noMsgReady, base)
      else
        match format.header data with
        | .error reason => (.invalid, { base with optDataInvalidReason := some reason })
        | .ok body =>
            if data.length < format.sizeFieldType.size + body then (.noMsgReady, { base with optMsgBodySize := some body })
            else if format.includeSizeFieldInMsg then
              (.msgReady 0 (body + format.sizeFieldType.size) 0, { base with optMsgBodySize := some body })
            else (.msgReady format.sizeFieldType.size body 0, { base with optMsgBodySize := some body }) := by
  unfold getNextMsg
  dsimp only
  by_cases short : data.length < format.sizeFieldType.size
  · rw [if_pos (reads.sizeFieldSize ▸ short), if_pos short]
  · rw [if_neg (reads.sizeFieldSize ▸ short), if_neg short, knowMsgBodySize_eq reads knows]
    rcases header : format.header data with reason | body
    · rfl
    · -- a body the format accepts fits a size_t together with its field
      have fits : format.sizeFieldType.size + body < 2 ^ 64 := by
        have := format.header_le header
        have := format.maxFits
        omega
      have fits' : body + format.sizeFieldType.size < 2 ^ 64 := by omega
      simp only [Option.getD_some, sizeAdd, reads.sizeFieldSize, Nat.mod_eq_of_lt fits, Nat.mod_eq_of_lt fits',
        reads.includeSizeFieldInMsg]

theorem knows_some (long : format.sizeFieldType.size ≤ data.length) {body : Nat}
    (header : format.header data = .ok body) :
    ({ base with optMsgBodySize := some body } : TStreamMsgWithSizeReaderBase).Knows format data := by
  intro known same
  cases same
  exact ⟨long, header⟩

section Outcomes

variable (reads : base.Reads format) (knows : base.Knows format data) (atEndOfInput : Bool)
include reads knows

/-- Too few bytes for the message at the front: no message, and what is
known of its size kept. -/
theorem getNextMsg_of_incomplete (incomplete : format.split data = .incomplete) :
    ∃ cache, base.getNextMsg data atEndOfInput = (.noMsgReady, { base with optMsgBodySize := cache }) ∧
      ({ base with optMsgBodySize := cache } : TStreamMsgWithSizeReaderBase).Knows format data := by
  rw [getNextMsg_eq reads knows]
  unfold TFrameFormat.split at incomplete
  split_ifs at incomplete with short
  · exact ⟨base.optMsgBodySize, by rw [if_pos short], knows⟩
  · rw [if_neg short]
    rcases header : format.header data with reason | body
    · rw [header] at incomplete
      cases incomplete
    · rw [header] at incomplete
      dsimp only at incomplete ⊢
      split_ifs at incomplete with shortBody
      rw [if_pos shortBody]
      exact ⟨_, rfl, knows_some (Nat.le_of_not_lt short) header⟩

/-- A size field no message can have: the data is invalid, for the
format's reason. -/
theorem getNextMsg_of_invalid {reason : TDataInvalidReason} (invalid : format.split data = .invalid reason) :
    base.getNextMsg data atEndOfInput = (.invalid, { base with optDataInvalidReason := some reason }) := by
  rw [getNextMsg_eq reads knows]
  unfold TFrameFormat.split at invalid
  split_ifs at invalid with short
  rw [if_neg short]
  rcases header : format.header data with reason' | body
  · rw [header] at invalid
    cases invalid
    rfl
  · rw [header] at invalid
    dsimp only at invalid
    split_ifs at invalid

/-- A whole message at the front: `GetNextMsg()` reports where it lies,
and the message and its size field end where the format's frame ends. -/
theorem getNextMsg_of_frame {msg rest : List UInt8} (found : format.split data = .frame msg rest) :
    ∃ offset size body,
      base.getNextMsg data atEndOfInput = (.msgReady offset size 0, { base with optMsgBodySize := some body }) ∧
      ({ base with optMsgBodySize := some body } : TStreamMsgWithSizeReaderBase).Knows format data ∧
      (data.drop offset).take size = msg ∧ offset + size ≤ data.length ∧ data.drop (offset + size) = rest := by
  rw [getNextMsg_eq reads knows]
  unfold TFrameFormat.split at found
  split_ifs at found with short
  rw [if_neg short]
  rcases header : format.header data with reason | body
  · rw [header] at found
    cases found
  · rw [header] at found
    dsimp only at found ⊢
    split_ifs at found with shortBody
    cases found
    have knowsBody : ({ base with optMsgBodySize := some body } : TStreamMsgWithSizeReaderBase).Knows format data :=
      knows_some (Nat.le_of_not_lt short) header
    rw [if_neg shortBody]
    unfold TFrameFormat.reported
    cases format.includeSizeFieldInMsg
    · -- the message is the body, after its size field
      exact ⟨_, _, body, rfl, knowsBody, rfl, by omega, rfl⟩
    · -- the message holds its size field
      refine ⟨_, _, body, rfl, knowsBody, ?_, by omega, ?_⟩
      · simp only [List.drop_zero, if_true, Nat.add_comm]
      · rw [Nat.zero_add, Nat.add_comm]

end Outcomes

end TStreamMsgWithSizeReaderBase

end Dory.Base
