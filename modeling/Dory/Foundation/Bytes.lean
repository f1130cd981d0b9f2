/-
Module: Dory.Foundation.Bytes
Purpose: Fixed-width integer fields of a byte buffer in network byte order
  (most significant byte first): the number a byte string denotes, the bytes
  a writer stores for a number, the two's complement reading of a field and
  the wrap-around of a signed machine integer, reads at a position that may
  lie outside the buffer, and the CRC-32 checksum of a byte string.  The
  lemmas give the range of every read, the read-after-write round trip, and
  reading a field at its offset inside a longer buffer.
Trusted boundary: none
Main exports: beValue, beBytes, toSigned, ofSigned, wrapSigned, bytesAt,
  readUnsigned, readSigned, readSignedAt?, bytesAt?, readUnsignedAt?, crc32,
  beValue_beBytes, beBytes_beValue, toSigned_ofSigned, ofSigned_toSigned,
  readSigned_append_beBytes, bytesAt_eq_beBytes, readSignedAt?_of_le
-/
import Mathlib

namespace Dory.Foundation.Bytes

/-! ### Unsigned values -/

/-- The number a byte string denotes, most significant byte first. -/
def beValue (bytes : List UInt8) : Nat :=
  bytes.foldl (fun acc byte => acc * 256 + byte.toNat) 0

/-- The `width` low bytes of `value`, most significant first. -/
def beBytes : Nat → Nat → List UInt8
  | 0, _ => []
  | width + 1, value => beBytes width (value / 256) ++ [UInt8.ofNat value]

@[simp] theorem beValue_nil : beValue [] = 0 := rfl

@[simp] theorem beValue_append_singleton (bytes : List UInt8) (byte : UInt8) :
    beValue (bytes ++ [byte]) = beValue bytes * 256 + byte.toNat := by
  simp [beValue, List.foldl_append]

@[simp] theorem length_beBytes (width value : Nat) : (beBytes width value).length = width := by
  induction width generalizing value with
  | zero => rfl
  | succ width ih => simp [beBytes, ih]

theorem beValue_lt (bytes : List UInt8) : beValue bytes < 256 ^ bytes.length := by
  induction bytes using List.reverseRecOn with
  | nil => simp
  | append_singleton bytes byte ih =>
      have byteLt : byte.toNat < 256 := UInt8.toNat_lt_size byte
      rw [beValue_append_singleton, List.length_append, List.length_singleton, pow_succ]
      -- the new low byte fits below the shifted bound of the prefix
      calc beValue bytes * 256 + byte.toNat
          < beValue bytes * 256 + 256 := by omega
        _ = (beValue bytes + 1) * 256 := by ring
        _ ≤ 256 ^ bytes.length * 256 := Nat.mul_le_mul_right _ ih

/-- Reading the bytes written for `value` gives it back modulo the width. -/
@[simp] theorem beValue_beBytes (width value : Nat) :
    beValue (beBytes width value) = value % 256 ^ width := by
  induction width generalizing value with
  | zero => simp [beBytes, Nat.mod_one]
  | succ width ih =>
      simp only [beBytes, beValue_append_singleton, ih, UInt8.toNat_ofNat', Nat.reducePow]
      rw [pow_succ', Nat.mod_mul]
      ring

/-- The bytes of a string are those written for the number they denote. -/
theorem beBytes_beValue (bytes : List UInt8) : beBytes bytes.length (beValue bytes) = bytes := by
  induction bytes using List.reverseRecOn with
  | nil => rfl
  | append_singleton bytes byte ih =>
      have byteLt : byte.toNat < 256 := UInt8.toNat_lt_size byte
      -- the low byte is the last one, and the prefix is the value shifted down
      have high : (beValue bytes * 256 + byte.toNat) / 256 = beValue bytes := by omega
      have low : UInt8.ofNat (beValue bytes * 256 + byte.toNat) = byte := by
        apply UInt8.toNat.inj
        simp only [UInt8.toNat_ofNat']
        omega
      rw [List.length_append, List.length_singleton, beBytes, beValue_append_singleton, high, low, ih]

/-! ### Signed values -/

/-- The two's complement reading of a `width`-byte unsigned value. -/
def toSigned (width value : Nat) : Int :=
  if value < 2 ^ (8 * width - 1) then value else value - 2 ^ (8 * width)

/-- The unsigned value a `width`-byte two's complement field stores for `value`. -/
def ofSigned (width : Nat) (value : Int) : Nat :=
  (value % 2 ^ (8 * width)).toNat

/-- The value an `8 * width`-bit signed machine integer holds after an
operation whose exact result is `value`, wrapping around on overflow. -/
def wrapSigned (width : Nat) (value : Int) : Int :=
  toSigned width (ofSigned width value)

section Signed

variable {width : Nat}

/-- The full range of a field is twice its signed half-range. -/
theorem two_pow_eq_double (positive : 0 < width) :
    (2 : Int) ^ (8 * width) = 2 * 2 ^ (8 * width - 1) := by
  obtain ⟨bits, bitsEq⟩ : ∃ bits, 8 * width = bits + 1 := ⟨8 * width - 1, by omega⟩
  rw [bitsEq, Nat.add_sub_cancel, pow_succ]
  ring

theorem ofSigned_lt (width : Nat) (value : Int) : ofSigned width value < 2 ^ (8 * width) := by
  have positive : (0 : Int) < 2 ^ (8 * width) := by positivity
  have below := Int.emod_lt_of_pos value positive
  have nonneg := Int.emod_nonneg value positive.ne'
  have cast : ((2 ^ (8 * width) : Nat) : Int) = 2 ^ (8 * width) := by push_cast; rfl
  unfold ofSigned
  omega

theorem toSigned_lower (positive : 0 < width) (value : Nat) :
    -2 ^ (8 * width - 1) ≤ toSigned width value := by
  have double := two_pow_eq_double positive
  unfold toSigned
  split
  · have : (0 : Int) ≤ 2 ^ (8 * width - 1) := by positivity
    omega
  · rename_i notBelow
    have : (2 : Int) ^ (8 * width - 1) ≤ value := by exact_mod_cast Nat.le_of_not_lt notBelow
    omega

theorem toSigned_upper (positive : 0 < width) {value : Nat} (fits : value < 2 ^ (8 * width)) :
    toSigned width value < 2 ^ (8 * width - 1) := by
  have double := two_pow_eq_double positive
  have fitsInt : (value : Int) < 2 ^ (8 * width) := by exact_mod_cast fits
  unfold toSigned
  split
  · rename_i below
    exact_mod_cast below
  · omega

/-- Storing a value of the signed range and reading it back gives it. -/
theorem toSigned_ofSigned (positive : 0 < width) {value : Int}
    (lower : -2 ^ (8 * width - 1) ≤ value) (upper : value < 2 ^ (8 * width - 1)) :
    toSigned width (ofSigned width value) = value := by
  have double := two_pow_eq_double positive
  have half : (0 : Int) < 2 ^ (8 * width - 1) := by positivity
  have stored : 0 ≤ value % 2 ^ (8 * width) := Int.emod_nonneg value (by positivity)
  unfold toSigned ofSigned
  have cast : ((value % 2 ^ (8 * width)).toNat : Int) = value % 2 ^ (8 * width) :=
    Int.toNat_of_nonneg stored
  have halfCast : ((2 ^ (8 * width - 1) : Nat) : Int) = 2 ^ (8 * width - 1) := by push_cast; rfl
  rcases Int.lt_or_le value 0 with negative | nonneg
  · -- a negative value is stored shifted up by the full range
    have shifted : value % 2 ^ (8 * width) = value + 2 ^ (8 * width) := by
      rw [Int.emod_eq_add_self_emod, Int.emod_eq_of_lt (by omega) (by omega)]
    rw [if_neg (by omega)]
    omega
  · have same : value % 2 ^ (8 * width) = value := Int.emod_eq_of_lt nonneg (by omega)
    rw [if_pos (by omega)]
    omega

/-- A signed operation whose result fits does not wrap. -/
theorem wrapSigned_of_range (positive : 0 < width) {value : Int}
    (lower : -2 ^ (8 * width - 1) ≤ value) (upper : value < 2 ^ (8 * width - 1)) :
    wrapSigned width value = value :=
  toSigned_ofSigned positive lower upper

/-- The two's complement reading of a stored value stores it back. -/
theorem ofSigned_toSigned {value : Nat} (fits : value < 2 ^ (8 * width)) :
    ofSigned width (toSigned width value) = value := by
  have fitsInt : (value : Int) < 2 ^ (8 * width) := by exact_mod_cast fits
  unfold toSigned ofSigned
  split
  · rw [Int.emod_eq_of_lt (Int.natCast_nonneg _) fitsInt, Int.toNat_natCast]
  · rw [Int.sub_emod_right, Int.emod_eq_of_lt (Int.natCast_nonneg _) fitsInt, Int.toNat_natCast]

/-- An unsigned value that fits is stored as itself. -/
theorem ofSigned_natCast {value : Nat} (fits : value < 2 ^ (8 * width)) :
    ofSigned width value = value := by
  have fitsInt : (value : Int) < 2 ^ (8 * width) := by exact_mod_cast fits
  simp [ofSigned, Int.emod_eq_of_lt (Int.natCast_nonneg value) fitsInt]

end Signed

/-! ### Fields of a buffer -/

/-- The `width` bytes of `buf` from position `pos` on, as many as it has. -/
def bytesAt (buf : List UInt8) (pos width : Nat) : List UInt8 :=
  (buf.drop pos).take width

/-- The unsigned field of `width` bytes at `pos`. -/
def readUnsigned (buf : List UInt8) (pos width : Nat) : Nat :=
  beValue (bytesAt buf pos width)

/-- The two's complement field of `width` bytes at `pos`. -/
def readSigned (buf : List UInt8) (pos width : Nat) : Int :=
  toSigned width (readUnsigned buf pos width)

/-- A signed read at a position computed by pointer arithmetic, which may lie
before or after the buffer: `none` when a byte of the field is outside it. -/
def readSignedAt? (buf : List UInt8) (pos : Int) (width : Nat) : Option Int :=
  if 0 ≤ pos ∧ pos + width ≤ buf.length then some (readSigned buf pos.toNat width) else none

theorem length_bytesAt {buf : List UInt8} {pos count : Nat} (inside : pos + count ≤ buf.length) :
    (bytesAt buf pos count).length = count := by
  simp only [bytesAt, List.length_take, List.length_drop]
  omega

theorem bytesAt_append (pre field post : List UInt8) :
    bytesAt (pre ++ field ++ post) pre.length field.length = field := by
  simp [bytesAt, List.append_assoc]

/-- The bytes of a piece of the buffer, given where the piece is. -/
theorem bytesAt_eq {buf : List UInt8} (pre field post : List UInt8) {pos count : Nat}
    (split : buf = pre ++ field ++ post) (at_ : pre.length = pos) (length : field.length = count) :
    bytesAt buf pos count = field := by
  rw [split, ← at_, ← length, bytesAt_append]

/-- A field written at its offset inside a buffer reads back as its value. -/
theorem readSigned_append_beBytes {width : Nat} (positive : 0 < width) (pre post : List UInt8)
    {value : Int} (lower : -2 ^ (8 * width - 1) ≤ value) (upper : value < 2 ^ (8 * width - 1)) :
    readSigned (pre ++ beBytes width (ofSigned width value) ++ post) pre.length width = value := by
  have field := bytesAt_append pre (beBytes width (ofSigned width value)) post
  rw [length_beBytes] at field
  have fits : ofSigned width value < 256 ^ width := by
    rw [show (256 : Nat) = 2 ^ 8 by rfl, ← pow_mul]
    exact ofSigned_lt width value
  rw [readSigned, readUnsigned, field, beValue_beBytes, Nat.mod_eq_of_lt fits]
  exact toSigned_ofSigned positive lower upper

theorem readSigned_lower {width : Nat} (positive : 0 < width) (buf : List UInt8) (pos : Nat) :
    -2 ^ (8 * width - 1) ≤ readSigned buf pos width :=
  toSigned_lower positive _

theorem readUnsigned_lt (buf : List UInt8) (pos width : Nat) :
    readUnsigned buf pos width < 2 ^ (8 * width) := by
  have fewer : (bytesAt buf pos width).length ≤ width := by simp [bytesAt]
  calc readUnsigned buf pos width < 256 ^ (bytesAt buf pos width).length := beValue_lt _
    _ ≤ 256 ^ width := Nat.pow_le_pow_right (by decide) fewer
    _ = 2 ^ (8 * width) := by rw [pow_mul]; rfl

theorem readSigned_upper {width : Nat} (positive : 0 < width) (buf : List UInt8) (pos : Nat) :
    readSigned buf pos width < 2 ^ (8 * width - 1) :=
  toSigned_upper positive (readUnsigned_lt buf pos width)

/-- A field inside the buffer holds the bytes a writer stores for the value
read from it. -/
theorem bytesAt_eq_beBytes {buf : List UInt8} {pos width : Nat} (inside : pos + width ≤ buf.length) :
    bytesAt buf pos width = beBytes width (ofSigned width (readSigned buf pos width)) := by
  have length : (bytesAt buf pos width).length = width := by
    simp only [bytesAt, List.length_take, List.length_drop]
    omega
  rw [readSigned, ofSigned_toSigned (readUnsigned_lt buf pos width), readUnsigned]
  conv_lhs => rw [← beBytes_beValue (bytesAt buf pos width), length]

theorem readSignedAt?_of_le {buf : List UInt8} {pos : Int} {width : Nat}
    (start : 0 ≤ pos) (inside : pos + width ≤ buf.length) :
    readSignedAt? buf pos width = some (readSigned buf pos.toNat width) := by
  simp [readSignedAt?, start, inside]

theorem readSignedAt?_of_neg {buf : List UInt8} {pos : Int} (before : pos < 0) (width : Nat) :
    readSignedAt? buf pos width = none := by
  simp [readSignedAt?, Int.not_le.mpr before]

/-- The `count` bytes at a position computed by pointer arithmetic: `none`
when one of them is outside the buffer. -/
def bytesAt? (buf : List UInt8) (pos : Int) (count : Nat) : Option (List UInt8) :=
  if 0 ≤ pos ∧ pos + count ≤ buf.length then some (bytesAt buf pos.toNat count) else none

/-- An unsigned read at a computed position, `none` when it leaves the buffer. -/
def readUnsignedAt? (buf : List UInt8) (pos : Int) (width : Nat) : Option Nat :=
  if 0 ≤ pos ∧ pos + width ≤ buf.length then some (readUnsigned buf pos.toNat width) else none

theorem bytesAt?_of_le {buf : List UInt8} {pos : Int} {count : Nat}
    (start : 0 ≤ pos) (inside : pos + count ≤ buf.length) :
    bytesAt? buf pos count = some (bytesAt buf pos.toNat count) := by
  simp [bytesAt?, start, inside]

theorem readUnsignedAt?_of_le {buf : List UInt8} {pos : Int} {width : Nat}
    (start : 0 ≤ pos) (inside : pos + width ≤ buf.length) :
    readUnsignedAt? buf pos width = some (readUnsigned buf pos.toNat width) := by
  simp [readUnsignedAt?, start, inside]

/-! ### Checksums -/

/-- The reflected polynomial of CRC-32 (IEEE 802.3). -/
def crc32Polynomial : UInt32 := 0xEDB88320

/-- One byte of the bitwise CRC-32 register update, low bit first. -/
def crc32Byte (crc : UInt32) (byte : UInt8) : UInt32 :=
  (List.range 8).foldl
    (fun reg _ => if reg &&& 1 = 1 then (reg >>> 1) ^^^ crc32Polynomial else reg >>> 1)
    (crc ^^^ byte.toUInt32)

/-- CRC-32 as `boost::crc_32_type` computes it: the register starts with all
ones, takes the bytes low bit first, and is inverted at the end. -/
def crc32 (bytes : List UInt8) : UInt32 :=
  bytes.foldl crc32Byte 0xFFFFFFFF ^^^ 0xFFFFFFFF

set_option maxRecDepth 4000 in
/-- The standard check value: the CRC-32 of the ASCII digits `123456789`. -/
example : crc32 [49, 50, 51, 52, 53, 54, 55, 56, 57] = 0xCBF43926 := by decide

end Dory.Foundation.Bytes
