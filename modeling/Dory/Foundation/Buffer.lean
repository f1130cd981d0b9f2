/-
Module: Dory.Foundation.Buffer
Purpose: Byte buffers as a writer builds them and a reader walks them.  A
  writer grows its buffer, fills the new bytes, and back-patches fields it
  reserved earlier (`resize`, `overwrite`); a reader keeps an offset into the
  buffer and reads fields relative to it.  `SuffixAt buf pos rest` says that
  the bytes of `buf` from `pos` on are `rest`: it is the invariant a reader's
  offset keeps, and the lemmas move it past a field, read a field at it, and
  measure the space left after it.
Trusted boundary: none
Main exports: resize, overwrite, SuffixAt, SuffixAt.skip, SuffixAt.prepend, SuffixAt.bytesAt,
  SuffixAt.readSignedAt?, overwrite_append, overwrite_eq, resize_add
-/
import Dory.Foundation.Bytes

namespace Dory.Foundation.Buffer

open Dory.Foundation.Bytes

/-! ### Writing -/

/-- `std::vector<uint8_t>::resize(size)`: keep the first `size` bytes, and
append zero bytes up to `size`. -/
def resize (buf : List UInt8) (size : Nat) : List UInt8 :=
  buf.take size ++ List.replicate (size - buf.length) 0

/-- Store `field` at `pos`, over the bytes that were there. -/
def overwrite (buf : List UInt8) (pos : Nat) (field : List UInt8) : List UInt8 :=
  buf.take pos ++ field ++ buf.drop (pos + field.length)

@[simp] theorem length_resize (buf : List UInt8) (size : Nat) : (resize buf size).length = size := by
  simp only [resize, List.length_append, List.length_take, List.length_replicate]
  omega

/-- Growing a buffer appends zero bytes. -/
theorem resize_add (buf : List UInt8) (extra : Nat) :
    resize buf (buf.length + extra) = buf ++ List.replicate extra 0 := by
  simp [resize]

/-- Resizing to past a prefix keeps the prefix and resizes what follows. -/
theorem resize_append (pre rest : List UInt8) (size : Nat) :
    resize (pre ++ rest) (pre.length + size) = pre ++ resize rest size := by
  simp only [resize, List.take_append, List.take_of_length_le (Nat.le_add_right _ _), List.length_append,
    Nat.add_sub_cancel_left, List.append_assoc]
  congr 3
  omega

/-- Cutting a buffer back to a prefix. -/
theorem resize_prefix (pre rest : List UInt8) : resize (pre ++ rest) pre.length = pre := by
  simp [resize]

/-- Storing a field over bytes of its own length replaces exactly them. -/
theorem overwrite_append (pre old post new : List UInt8) (same : new.length = old.length) :
    overwrite (pre ++ old ++ post) pre.length new = pre ++ new ++ post := by
  simp [overwrite, same, List.drop_append, List.append_assoc]

/-- Storing a field over a piece of the buffer of its own length, given where
the piece is. -/
theorem overwrite_eq {buf : List UInt8} (pre old post new : List UInt8) {pos : Nat}
    (split : buf = pre ++ old ++ post) (at_ : pre.length = pos) (same : new.length = old.length) :
    overwrite buf pos new = pre ++ new ++ post := by
  rw [split, ← at_, overwrite_append _ _ _ _ same]

/-- Storing a field at the start, over the bytes of its own length there. -/
theorem overwrite_front (old post new : List UInt8) (same : new.length = old.length) :
    overwrite (old ++ post) 0 new = new ++ post := by
  simpa using overwrite_append [] old post new same

/-- Storing nothing changes nothing. -/
@[simp] theorem overwrite_nil (buf : List UInt8) (pos : Nat) : overwrite buf pos [] = buf := by
  simp [overwrite]

/-- Two fields stored one after the other are one field. -/
theorem overwrite_overwrite {buf : List UInt8} {pos next : Nat} (within : pos ≤ buf.length)
    (first second : List UInt8) (after : pos + first.length = next) :
    overwrite (overwrite buf pos first) next second = overwrite buf pos (first ++ second) := by
  subst after
  have before : (buf.take pos).length = pos := List.length_take_of_le within
  simp only [overwrite, List.append_assoc, List.length_append]
  rw [List.take_append, before, List.take_of_length_le (by omega), Nat.add_sub_cancel_left,
    List.take_append_of_le_length (le_refl _), List.take_length, List.drop_append, before,
    List.drop_eq_nil_of_le (by omega), List.nil_append, List.drop_append,
    List.drop_eq_nil_of_le (by omega), List.nil_append, List.drop_drop]
  have skipped : pos + first.length + (pos + first.length + second.length - pos - first.length) =
      pos + (first.length + second.length) := by omega
  rw [skipped, List.append_assoc]

theorem length_overwrite {buf field : List UInt8} {pos : Nat} (inside : pos + field.length ≤ buf.length) :
    (overwrite buf pos field).length = buf.length := by
  simp only [overwrite, List.length_append, List.length_take, List.length_drop]
  omega

/-- The bytes up to the end of a stored field are those before it and the
field. -/
theorem take_overwrite {buf field : List UInt8} {pos : Nat} (within : pos ≤ buf.length) :
    (overwrite buf pos field).take (pos + field.length) = buf.take pos ++ field := by
  have before : (buf.take pos).length = pos := List.length_take_of_le within
  rw [overwrite, List.append_assoc, List.take_append, before, List.take_of_length_le (by omega),
    Nat.add_sub_cancel_left, List.take_append_of_le_length (le_refl _), List.take_length]

/-- The bytes before a stored field stay. -/
theorem take_overwrite_of_le {buf field : List UInt8} {pos : Nat} (within : pos ≤ buf.length) :
    (overwrite buf pos field).take pos = buf.take pos := by
  have before : (buf.take pos).length = pos := List.length_take_of_le within
  rw [overwrite, List.append_assoc, List.take_append, before, Nat.sub_self, List.take_zero, List.append_nil,
    List.take_of_length_le (le_of_eq before)]

/-- A field stored up to the end of the buffer replaces all its bytes from
the position on. -/
theorem overwrite_to_end {buf field : List UInt8} {pos : Nat} (toEnd : pos + field.length = buf.length) :
    overwrite buf pos field = buf.take pos ++ field := by
  simp [overwrite, List.drop_eq_nil_of_le (le_of_eq toEnd.symm)]

/-- A field stored past the first part of a buffer leaves the first part. -/
theorem overwrite_append_of_ge {pre rest field : List UInt8} {pos : Nat} (after : pre.length ≤ pos) :
    overwrite (pre ++ rest) pos field = pre ++ overwrite rest (pos - pre.length) field := by
  simp only [overwrite, List.take_append, List.drop_append, List.take_of_length_le after,
    List.drop_eq_nil_of_le (show pre.length ≤ pos + field.length by omega), List.nil_append, List.append_assoc]
  rw [Nat.sub_add_comm after]

/-- A field stored at the start replaces as many bytes. -/
theorem overwrite_zero (buf field : List UInt8) : overwrite buf 0 field = field ++ buf.drop field.length := by
  simp [overwrite]

/-! ### Reading at an offset -/

/-- The bytes of `buf` from offset `pos` on are `rest`. -/
def SuffixAt (buf : List UInt8) (pos : Nat) (rest : List UInt8) : Prop :=
  ∃ pre, buf = pre ++ rest ∧ pre.length = pos

namespace SuffixAt

variable {buf rest : List UInt8} {pos : Nat}

theorem start (buf : List UInt8) : SuffixAt buf 0 buf := ⟨[], rfl, rfl⟩

theorem of_le (within : pos ≤ buf.length) : SuffixAt buf pos (buf.drop pos) :=
  ⟨buf.take pos, (List.take_append_drop pos buf).symm, List.length_take_of_le within⟩

theorem eq_of_zero (at_ : SuffixAt buf 0 rest) : buf = rest := by
  obtain ⟨pre, rfl, preLength⟩ := at_
  rw [List.length_eq_zero_iff.mp preLength, List.nil_append]

theorem length_eq (at_ : SuffixAt buf pos rest) : buf.length = pos + rest.length := by
  obtain ⟨pre, rfl, rfl⟩ := at_
  simp

theorem le_length (at_ : SuffixAt buf pos rest) : pos ≤ buf.length := by
  have := at_.length_eq
  omega

/-- Moving the offset past the first bytes of the suffix. -/
theorem skip {field : List UInt8} (at_ : SuffixAt buf pos (field ++ rest)) :
    SuffixAt buf (pos + field.length) rest := by
  obtain ⟨pre, rfl, rfl⟩ := at_
  exact ⟨pre ++ field, by simp, by simp⟩

/-- Moving the offset past a field of known length. -/
theorem skipBy {field : List UInt8} {count : Nat} (at_ : SuffixAt buf pos (field ++ rest))
    (length : field.length = count) : SuffixAt buf (pos + count) rest :=
  length ▸ at_.skip

/-- The bytes at the offset, in front of the suffix after them. -/
theorem prepend {field : List UInt8} (after : SuffixAt buf (pos + field.length) rest)
    (read : Bytes.bytesAt buf pos field.length = field) : SuffixAt buf pos (field ++ rest) := by
  obtain ⟨pre, rfl, preLength⟩ := after
  have dropped : pre.drop pos = field := by
    have fieldLength : (pre.drop pos).length = field.length := by simp [preLength]
    rw [Bytes.bytesAt, List.drop_append_of_le_length (by omega),
      List.take_append_of_le_length (by omega), List.take_of_length_le (by omega)] at read
    exact read
  refine ⟨pre.take pos, ?_, List.length_take_of_le (by omega)⟩
  rw [← dropped, ← List.append_assoc, List.take_append_drop]

/-- A signed field read at the offset: the bytes from the offset on are the
bytes stored for the value read, and then the suffix after the field. -/
theorem prepend_read {width : Nat} (after : SuffixAt buf (pos + width) rest) :
    SuffixAt buf pos (beBytes width (ofSigned width (readSigned buf pos width)) ++ rest) := by
  have inside := after.le_length
  refine prepend (by rwa [length_beBytes]) ?_
  rw [length_beBytes, bytesAt_eq_beBytes inside]

/-- Bytes read at the offset, in front of the suffix after them. -/
theorem prepend_bytes {count : Nat} (after : SuffixAt buf (pos + count) rest) :
    SuffixAt buf pos (Bytes.bytesAt buf pos count ++ rest) := by
  have length : (Bytes.bytesAt buf pos count).length = count := length_bytesAt after.le_length
  exact prepend (by rwa [length]) (by rw [length])

theorem congr {rest' : List UInt8} (at_ : SuffixAt buf pos rest) (same : rest = rest') :
    SuffixAt buf pos rest' := same ▸ at_

/-- The first bytes of the suffix are the buffer's bytes at the offset. -/
theorem bytesAt {field : List UInt8} (at_ : SuffixAt buf pos (field ++ rest)) :
    Bytes.bytesAt buf pos field.length = field := by
  obtain ⟨pre, rfl, rfl⟩ := at_
  simp [Bytes.bytesAt]

/-- A signed field that starts the suffix reads back as its value. -/
theorem readSignedAt? {width : Nat} (positive : 0 < width) {value : Int}
    (lower : -2 ^ (8 * width - 1) ≤ value) (upper : value < 2 ^ (8 * width - 1))
    (at_ : SuffixAt buf pos (beBytes width (ofSigned width value) ++ rest)) :
    Bytes.readSignedAt? buf pos width = some value := by
  obtain ⟨pre, rfl, rfl⟩ := at_
  rw [readSignedAt?_of_le (Int.natCast_nonneg _) (by simp), Int.toNat_natCast]
  simpa [← List.append_assoc] using readSigned_append_beBytes positive pre rest lower upper

/-- The same read at an offset known to be inside the buffer. -/
theorem readSigned {width : Nat} (positive : 0 < width) {value : Int}
    (lower : -2 ^ (8 * width - 1) ≤ value) (upper : value < 2 ^ (8 * width - 1))
    (at_ : SuffixAt buf pos (beBytes width (ofSigned width value) ++ rest)) :
    Bytes.readSigned buf pos width = value := by
  have read := at_.readSignedAt? positive lower upper
  rwa [readSignedAt?_of_le (Int.natCast_nonneg _) (by have := at_.length_eq; simp at this ⊢; omega),
    Int.toNat_natCast, Option.some_inj] at read

/-- An unsigned field that starts the suffix reads back as its value. -/
theorem readUnsignedAt? {width value : Nat} (fits : value < 2 ^ (8 * width))
    (at_ : SuffixAt buf pos (beBytes width value ++ rest)) :
    Bytes.readUnsignedAt? buf pos width = some value := by
  have inside : pos + width ≤ buf.length := by have := at_.length_eq; simp at this; omega
  rw [readUnsignedAt?_of_le (Int.natCast_nonneg _) (by exact_mod_cast inside), Int.toNat_natCast,
    Bytes.readUnsigned, ← length_beBytes width value, at_.bytesAt, beValue_beBytes,
    Nat.mod_eq_of_lt (by rwa [show (256 : Nat) = 2 ^ 8 by rfl, ← pow_mul])]

/-- The bytes that start the suffix, read at a computed position. -/
theorem bytesAt? {field : List UInt8} (at_ : SuffixAt buf pos (field ++ rest)) :
    Bytes.bytesAt? buf pos field.length = some field := by
  have inside : pos + field.length ≤ buf.length := by have := at_.length_eq; simp at this; omega
  rw [bytesAt?_of_le (Int.natCast_nonneg _) (by exact_mod_cast inside), Int.toNat_natCast, at_.bytesAt]

end SuffixAt

end Dory.Foundation.Buffer
