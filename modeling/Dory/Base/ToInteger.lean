/-
Module: Dory.Base.ToInteger
Purpose: `Base::ToUnsigned` (src/base/to_integer.{h,cc}) and `narrow_cast`
  (src/base/narrow_cast.h): the conversion of a C string to an unsigned
  integer in the bases a caller allows, and `Base::ToSigned<intmax_t>`, to a
  signed decimal `Int64`.  A C string is the list of its characters from its
  first on, ended by the list's end or by a NUL.  The binary form `0b...` is
  parsed by the repository's own loop, `BinaryDigitStringToInteger`; the other
  forms go through `std::stringstream` extraction, which is the standard
  library's and is a parameter `extract` here.  `UnsignedExtraction` and
  `SignedExtraction` state as named hypotheses what the conversions rely on it
  for (digits of the stream's base read as their value, failing past the type,
  and a `0x` prefix skipped in hexadecimal), and the conversions' results in
  octal, decimal and hexadecimal follow from them.  `uintmax_t` is `UInt64`; a
  destination type `T` is given by its width, and `narrow_cast<T>` keeps a
  value exactly when it is below `2^width`.  Release builds define `NDEBUG`,
  so the asserts are not checked.  `binarySpec` states the grammar of the
  binary form, and `toUnsigned_binary` says the conversion follows it.
Trusted boundary: none
Main exports: TBase, TToIntegerError, binaryDigitStringToInteger,
  toUnsignedMax, narrowCast, toUnsigned, toSignedMax, binaryValue, binarySpec,
  toUnsigned_binary, UnsignedExtraction, SignedExtraction,
  toUnsignedMax_decimal, toUnsignedMax_octal, toUnsignedMax_hex,
  toSignedMax_decimal, toSignedMax_negative
-/
import Mathlib

namespace Dory.Base

/-- `TBase`, with the bit of each base in a set of allowed bases. -/
inductive TBase where
  | bin
  | oct
  | dec
  | hex
deriving DecidableEq, Repr

/-- The value of each `TBase` enumerator. -/
def TBase.value : TBase → Nat
  | bin => 1
  | oct => 2
  | dec => 4
  | hex => 8

/-- What the conversion throws: `TInvalidInteger`, `TWrongBase` with the
base found and the bases allowed, and the `std::range_error` of
`narrow_cast`. -/
inductive TToIntegerError where
  | invalidInteger
  | wrongBase (found : TBase) (allowed : Nat)
  | rangeError
deriving DecidableEq, Repr

/-- The character a C string pointer points at: NUL past the end. -/
def current (s : List Char) : Char := s.headD '\x00'

/-- `std::isspace` in the C locale. -/
def isSpace (c : Char) : Bool :=
  c = ' ' || c = '\t' || c = '\n' || c = '\x0B' || c = '\x0C' || c = '\r'

/-- The loop of `BinaryDigitStringToInteger` after the leading zeros: a
digit past 64 bits is refused before it is looked at, and any character
other than `0` and `1` is refused. -/
def binaryDigitsLoop : List Char → UInt64 → Nat → Except TToIntegerError UInt64
  | [], result, _ => .ok result
  | digit :: rest, result, bits =>
      if digit = '\x00' then .ok result
      else if bits = 64 then .error .invalidInteger
      else
        let result := result <<< 1
        if digit = '1' then binaryDigitsLoop rest (result + 1) (bits + 1)
        else if digit ≠ '0' then .error .invalidInteger
        else binaryDigitsLoop rest result (bits + 1)

/-- `BinaryDigitStringToInteger(s, allowed_bases)`: the digits after `0b`,
refused when there are none, their leading zeros skipped; binary must be
allowed for a valid number to be returned. -/
def binaryDigitStringToInteger (s : List Char) (allowedBases : Nat) : Except TToIntegerError UInt64 :=
  if current s = '\x00' then .error .invalidInteger
  else do
    let result ← binaryDigitsLoop (s.dropWhile (· = '0')) 0 0
    if allowedBases &&& TBase.bin.value = 0 then .error (.wrongBase .bin allowedBases)
    else pure result

/-- The end of `ToUnsigned<uintmax_t>` for the bases the stream parses: the
stream's extraction must take the whole string, and the base found must be
allowed. -/
def streamToUnsigned (extract : TBase → List Char → Option UInt64) (base : TBase) (s : List Char)
    (allowedBases : Nat) : Except TToIntegerError UInt64 :=
  match extract base s with
  | none => .error .invalidInteger
  | some result =>
      if allowedBases &&& base.value = 0 then .error (.wrongBase base allowedBases) else .ok result

/-- `ToUnsigned<uintmax_t>(s, allowed_bases)`: leading white space and a
minus sign are refused, `0` alone is zero, `0b` and `0B` go to the binary
loop, and the rest is parsed by the stream in hexadecimal after `0x` or
`0X`, octal after any other `0`, and decimal otherwise. -/
def toUnsignedMax (extract : TBase → List Char → Option UInt64) (s : List Char) (allowedBases : Nat) :
    Except TToIntegerError UInt64 :=
  if isSpace (current s) then .error .invalidInteger
  else
    match s with
    | '-' :: _ => .error .invalidInteger
    | '0' :: rest =>
        if current rest = '\x00' then .ok 0
        else if current rest = 'b' ∨ current rest = 'B' then binaryDigitStringToInteger rest.tail allowedBases
        else if current rest = 'x' ∨ current rest = 'X' then streamToUnsigned extract .hex s allowedBases
        else streamToUnsigned extract .oct s allowedBases
    | _ => streamToUnsigned extract .dec s allowedBases

/-- `narrow_cast<T>(wide)` to an unsigned `T` of `width` bits: the value
cast to `T` must cast back to itself. -/
def narrowCast (width : Nat) (wide : UInt64) : Except TToIntegerError Nat :=
  let result := wide.toNat % 2 ^ width
  if result ≠ wide.toNat then .error .rangeError else .ok result

/-- `ToUnsigned<T>(s, allowed_bases)` for an unsigned `T` of `width` bits. -/
def toUnsigned (width : Nat) (extract : TBase → List Char → Option UInt64) (s : List Char)
    (allowedBases : Nat) : Except TToIntegerError Nat := do
  let value ← toUnsignedMax extract s allowedBases
  narrowCast width value

/-- `ToSigned<intmax_t>(s)`: leading white space is refused, and so is any
string other than `0` that starts with `0` (an octal unsigned value); the
rest is the stream's extraction of the whole string as an `intmax_t`,
which is the standard library's and is a parameter `extract` here. -/
def toSignedMax (extract : List Char → Option Int64) (s : List Char) : Except TToIntegerError Int64 :=
  if isSpace (current s) then .error .invalidInteger
  else if current s = '0' ∧ current s.tail ≠ '\x00' then .error .invalidInteger
  else
    match extract s with
    | none => .error .invalidInteger
    | some result => .ok result

/-- `ToSigned<intmax_t>` throws only `TInvalidInteger`. -/
theorem toSignedMax_error (extract : List Char → Option Int64) (s : List Char) {error : TToIntegerError}
    (failed : toSignedMax extract s = .error error) : error = .invalidInteger := by
  unfold toSignedMax at failed
  split_ifs at failed
  · exact (Except.error.inj failed).symm
  · exact (Except.error.inj failed).symm
  · split at failed
    · exact (Except.error.inj failed).symm
    · cases failed

/-! ### The grammar of the binary form -/

/-- `0` and `1`. -/
def isBinaryDigit (c : Char) : Bool := c = '0' || c = '1'

/-- One step of reading a binary digit, most significant first. -/
def binaryStep (value : Nat) (digit : Char) : Nat := 2 * value + if digit = '1' then 1 else 0

/-- The value of a string of binary digits. -/
def binaryValue (digits : List Char) : Nat := digits.foldl binaryStep 0

/-- The characters of a C string, up to its NUL. -/
def cString (s : List Char) : List Char := s.takeWhile (· ≠ '\x00')

/-- What `ToUnsigned<T>` should do with the characters after `0b`: refuse
anything but a nonempty string of binary digits whose value needs at most
64 bits, then refuse the base when binary is not allowed, then refuse a
value `T` cannot hold, and otherwise return the value. -/
def binarySpec (width : Nat) (digits : List Char) (allowedBases : Nat) : Except TToIntegerError Nat :=
  let digits := cString digits
  if digits = [] ∨ digits.all isBinaryDigit = false ∨ 2 ^ 64 ≤ binaryValue digits then .error .invalidInteger
  else if allowedBases &&& TBase.bin.value = 0 then .error (.wrongBase .bin allowedBases)
  else if 2 ^ width ≤ binaryValue digits then .error .rangeError
  else .ok (binaryValue digits)

section Value

/-- Reading digits from a carry shifts the carry past them. -/
theorem foldl_binaryStep (digits : List Char) (carry : Nat) :
    digits.foldl binaryStep carry = carry * 2 ^ digits.length + binaryValue digits := by
  induction digits generalizing carry with
  | nil => simp [binaryValue]
  | cons digit digits inductionHypothesis =>
      have unfolded : binaryValue (digit :: digits) = digits.foldl binaryStep (binaryStep 0 digit) := rfl
      rw [List.foldl_cons, inductionHypothesis, unfolded, inductionHypothesis, List.length_cons, pow_succ]
      simp only [binaryStep]
      ring

theorem binaryValue_cons (digit : Char) (digits : List Char) :
    binaryValue (digit :: digits) = (if digit = '1' then 1 else 0) * 2 ^ digits.length + binaryValue digits := by
  rw [binaryValue, List.foldl_cons, foldl_binaryStep, binaryStep, Nat.mul_zero, Nat.zero_add]

theorem binaryValue_lt (digits : List Char) : binaryValue digits < 2 ^ digits.length := by
  induction digits with
  | nil => simp [binaryValue]
  | cons digit digits inductionHypothesis =>
      rw [binaryValue_cons, List.length_cons, pow_succ]
      split <;> omega

/-- A string led by `1` needs all its digits. -/
theorem le_binaryValue (digits : List Char) :
    2 ^ digits.length ≤ binaryValue ('1' :: digits) := by
  rw [binaryValue_cons, if_pos rfl]
  omega

/-- Leading zeros add nothing. -/
theorem binaryValue_zeros_append {zeros : List Char} (allZero : ∀ c ∈ zeros, c = '0') (digits : List Char) :
    binaryValue (zeros ++ digits) = binaryValue digits := by
  induction zeros with
  | nil => rfl
  | cons zero zeros inductionHypothesis =>
      have isZero : zero = '0' := allZero zero (by simp)
      rw [List.cons_append, binaryValue_cons, if_neg (by rw [isZero]; decide), Nat.zero_mul, Nat.zero_add,
        inductionHypothesis (fun c member => allZero c (List.mem_cons_of_mem _ member))]

end Value

/-! ### The loop follows the grammar -/

section Loop

theorem cString_cons_of_ne {digit : Char} (notNul : digit ≠ '\x00') (rest : List Char) :
    cString (digit :: rest) = digit :: cString rest :=
  List.takeWhile_cons_of_pos (by simpa using notNul)

theorem cString_cons_nul (rest : List Char) : cString ('\x00' :: rest) = [] := by
  simp [cString]

section Shift

variable {result : UInt64} {bits : Nat} (fits : result.toNat < 2 ^ bits) (room : bits < 64)

include fits room in
theorem double_lt : 2 * result.toNat + 1 < 2 ^ 64 := by
  have : 2 ^ bits ≤ 2 ^ 63 := Nat.pow_le_pow_right (by decide) (by omega)
  omega

include fits room in
/-- `result <<= 1` below 64 bits does not wrap. -/
theorem shiftLeft_toNat : (result <<< 1).toNat = 2 * result.toNat := by
  have := double_lt fits room
  have oneBit : (1 : UInt64).toNat % 64 = 1 := by decide
  rw [UInt64.toNat_shiftLeft, oneBit, Nat.shiftLeft_eq, pow_one, Nat.mod_eq_of_lt (by omega), Nat.mul_comm]

include fits room in
/-- Nor does `++result` after it. -/
theorem shiftLeft_add_one_toNat : (result <<< 1 + 1).toNat = 2 * result.toNat + 1 := by
  have := double_lt fits room
  have one : (1 : UInt64).toNat = 1 := by decide
  rw [UInt64.toNat_add, shiftLeft_toNat fits room, one, Nat.mod_eq_of_lt (by omega)]

end Shift

/-- The digit loop from a result below `2^bits`: it shifts in the digits of
the C string exactly when they are all binary and fit the 64 bits, and
refuses the string otherwise. -/
theorem binaryDigitsLoop_eq (s : List Char) {result : UInt64} {bits : Nat} (fits : result.toNat < 2 ^ bits)
    (within : bits ≤ 64) :
    binaryDigitsLoop s result bits =
      if (cString s).all isBinaryDigit ∧ bits + (cString s).length ≤ 64 then
        .ok (UInt64.ofNat (result.toNat * 2 ^ (cString s).length + binaryValue (cString s)))
      else .error .invalidInteger := by
  induction s generalizing result bits with
  | nil => simp [binaryDigitsLoop, cString, binaryValue, within]
  | cons digit rest inductionHypothesis =>
      by_cases nul : digit = '\x00'
      · subst nul
        simp [binaryDigitsLoop, cString_cons_nul, binaryValue, within]
      rw [cString_cons_of_ne nul]
      by_cases full : bits = 64
      · -- a 65th significant digit is refused before it is looked at
        simp [binaryDigitsLoop, nul, full]
      have room : bits < 64 := by omega
      by_cases one : digit = '1'
      · -- `++result` after the shift, and one more bit
        subst one
        have shifted := shiftLeft_add_one_toNat fits room
        have next := @inductionHypothesis (result <<< 1 + 1) (bits + 1)
          (by rw [shifted, pow_succ]; omega) (by omega)
        have value : result.toNat * 2 ^ ((cString rest).length + 1) +
            (1 * 2 ^ (cString rest).length + binaryValue (cString rest)) =
            (2 * result.toNat + 1) * 2 ^ (cString rest).length + binaryValue (cString rest) := by ring
        have isDigit : isBinaryDigit '1' = true := rfl
        simp only [binaryDigitsLoop, nul, full, if_false, if_true]
        rw [next, shifted, binaryValue_cons, if_pos rfl, List.length_cons, List.all_cons, isDigit, Bool.true_and,
          value, show bits + ((cString rest).length + 1) = bits + 1 + (cString rest).length by omega]
      by_cases zero : digit = '0'
      · -- the shift alone, and one more bit
        subst zero
        have shifted := shiftLeft_toNat fits room
        have next := @inductionHypothesis (result <<< 1) (bits + 1)
          (by rw [shifted, pow_succ]; omega) (by omega)
        have value : result.toNat * 2 ^ ((cString rest).length + 1) +
            (0 * 2 ^ (cString rest).length + binaryValue (cString rest)) =
            2 * result.toNat * 2 ^ (cString rest).length + binaryValue (cString rest) := by ring
        have isDigit : isBinaryDigit '0' = true := rfl
        simp only [binaryDigitsLoop, nul, full, one, if_false]
        rw [next, shifted, binaryValue_cons, if_neg one, List.length_cons,
          List.all_cons, isDigit, Bool.true_and, value,
          show bits + ((cString rest).length + 1) = bits + 1 + (cString rest).length by omega]
        exact if_neg (fun different => different rfl)
      · -- any other character is refused
        simp [binaryDigitsLoop, nul, full, one, zero, isBinaryDigit]

end Loop

/-! ### Leading zeros -/

section Zeros

theorem cString_eq_nil_iff (s : List Char) : cString s = [] ↔ current s = '\x00' := by
  cases s with
  | nil => simp [cString, current]
  | cons c rest => by_cases nul : c = '\x00' <;> simp [cString, current, nul]

/-- A C string is its leading zeros and then the C string after them. -/
theorem cString_eq_zeros_append (s : List Char) :
    cString s = s.takeWhile (· = '0') ++ cString (s.dropWhile (· = '0')) := by
  induction s with
  | nil => rfl
  | cons c rest inductionHypothesis =>
      by_cases zero : c = '0'
      · subst zero
        rw [cString_cons_of_ne (by decide), List.takeWhile_cons_of_pos (by simp),
          List.dropWhile_cons_of_pos (by simp), inductionHypothesis, List.cons_append]
      · rw [List.takeWhile_cons_of_neg (by simpa using zero), List.dropWhile_cons_of_neg (by simpa using zero),
          List.nil_append]

/-- After the leading zeros, the C string does not start with `0`. -/
theorem head_cString_dropWhile (s : List Char) : (cString (s.dropWhile (· = '0'))).head? ≠ some '0' := by
  induction s with
  | nil => simp [cString]
  | cons c rest inductionHypothesis =>
      by_cases zero : c = '0'
      · rwa [List.dropWhile_cons_of_pos (by simpa using zero)]
      · rw [List.dropWhile_cons_of_neg (by simpa using zero)]
        by_cases nul : c = '\x00'
        · simp [nul, cString_cons_nul]
        · simp [cString_cons_of_ne nul, zero]

/-- Binary digits not led by `0` fit 64 bits exactly when there are at most
64 of them. -/
theorem length_le_iff_binaryValue_lt {digits : List Char} (binary : digits.all isBinaryDigit = true)
    (lead : digits.head? ≠ some '0') : digits.length ≤ 64 ↔ binaryValue digits < 2 ^ 64 := by
  cases digits with
  | nil => simp [binaryValue]
  | cons digit rest =>
      have isOne : digit = '1' := by
        simp only [List.all_cons, Bool.and_eq_true, isBinaryDigit, Bool.or_eq_true, decide_eq_true_eq] at binary
        simp only [List.head?_cons, ne_eq, Option.some.injEq] at lead
        tauto
      subst isOne
      have lower := le_binaryValue rest
      have upper := binaryValue_lt ('1' :: rest)
      rw [List.length_cons] at upper ⊢
      constructor
      · intro short
        exact Nat.lt_of_lt_of_le upper (Nat.pow_le_pow_right (by decide) short)
      · intro fits
        have : rest.length < 64 := (Nat.pow_lt_pow_iff_right (by decide)).mp (Nat.lt_of_le_of_lt lower fits)
        omega

/-- `BinaryDigitStringToInteger` follows the grammar up to the base check:
a nonempty C string of binary digits whose value needs at most 64 bits is
its value, when binary is allowed. -/
theorem binaryDigitStringToInteger_eq (s : List Char) (allowedBases : Nat) :
    binaryDigitStringToInteger s allowedBases =
      if cString s = [] ∨ (cString s).all isBinaryDigit = false ∨ 2 ^ 64 ≤ binaryValue (cString s) then
        .error .invalidInteger
      else if allowedBases &&& TBase.bin.value = 0 then .error (.wrongBase .bin allowedBases)
      else .ok (UInt64.ofNat (binaryValue (cString s))) := by
  by_cases nul : current s = '\x00'
  · rw [if_pos (Or.inl ((cString_eq_nil_iff s).mpr nul))]
    simp [binaryDigitStringToInteger, nul]
  have nonempty : cString s ≠ [] := fun empty => nul ((cString_eq_nil_iff s).mp empty)
  -- the leading zeros change neither the digits' validity nor their value
  have zeros : ∀ c ∈ s.takeWhile (· = '0'), c = '0' := fun c member => by
    simpa using List.mem_takeWhile_imp member
  have zerosBinary : (s.takeWhile (· = '0')).all isBinaryDigit = true := by
    rw [List.all_eq_true]
    intro c member
    simp [zeros c member, isBinaryDigit]
  have sameDigits : (cString s).all isBinaryDigit = (cString (s.dropWhile (· = '0'))).all isBinaryDigit := by
    rw [cString_eq_zeros_append s, List.all_append, zerosBinary, Bool.true_and]
  have sameValue : binaryValue (cString s) = binaryValue (cString (s.dropWhile (· = '0'))) := by
    rw [cString_eq_zeros_append s, binaryValue_zeros_append zeros]
  unfold binaryDigitStringToInteger
  rw [if_neg nul, binaryDigitsLoop_eq _ (by decide) (by decide), sameDigits, sameValue]
  by_cases valid : (cString (s.dropWhile (· = '0'))).all isBinaryDigit = true ∧
      0 + (cString (s.dropWhile (· = '0'))).length ≤ 64
  · obtain ⟨binary, short⟩ := valid
    have fits := (length_le_iff_binaryValue_lt binary (head_cString_dropWhile s)).mp (by omega)
    rw [if_pos ⟨binary, short⟩, if_neg (by simp [nonempty, binary]; omega),
      show (0 : UInt64).toNat = 0 from rfl, Nat.zero_mul, Nat.zero_add]
    rfl
  · rw [if_neg valid]
    have refused : (cString (s.dropWhile (· = '0'))).all isBinaryDigit = false ∨
        2 ^ 64 ≤ binaryValue (cString (s.dropWhile (· = '0'))) := by
      by_cases binary : (cString (s.dropWhile (· = '0'))).all isBinaryDigit = true
      · right
        have long : ¬ (cString (s.dropWhile (· = '0'))).length ≤ 64 := fun short => valid ⟨binary, by omega⟩
        rw [length_le_iff_binaryValue_lt binary (head_cString_dropWhile s)] at long
        omega
      · left
        simpa using binary
    rw [if_pos (Or.inr refused)]
    rfl

end Zeros

/-! ### The binary form -/

/-- After `0b` or `0B`, `ToUnsigned<uintmax_t>` is the binary loop. -/
theorem toUnsignedMax_binary (extract : TBase → List Char → Option UInt64) {b : Char}
    (binary : b = 'b' ∨ b = 'B') (digits : List Char) (allowedBases : Nat) :
    toUnsignedMax extract ('0' :: b :: digits) allowedBases = binaryDigitStringToInteger digits allowedBases := by
  have notNul : b ≠ '\x00' := by rcases binary with rfl | rfl <;> decide
  have notSpace : isSpace (current ('0' :: b :: digits)) = false := by simp [current, isSpace]
  simp only [toUnsignedMax, notSpace, Bool.false_eq_true, if_false]
  rw [if_neg (by simpa [current] using notNul), if_pos (by simpa [current] using binary)]
  rfl

/-- `ToUnsigned<T>` on `0b` or `0B` and the digits after it follows the
grammar of the binary form, for every destination width and every set of
allowed bases. -/
theorem toUnsigned_binary (width : Nat) (extract : TBase → List Char → Option UInt64) {b : Char}
    (binary : b = 'b' ∨ b = 'B') (digits : List Char) (allowedBases : Nat) :
    toUnsigned width extract ('0' :: b :: digits) allowedBases = binarySpec width digits allowedBases := by
  unfold toUnsigned binarySpec
  rw [toUnsignedMax_binary extract binary, binaryDigitStringToInteger_eq]
  dsimp only
  by_cases invalid : cString digits = [] ∨ (cString digits).all isBinaryDigit = false ∨
      2 ^ 64 ≤ binaryValue (cString digits)
  · rw [if_pos invalid, if_pos invalid]
    rfl
  rw [if_neg invalid, if_neg invalid]
  by_cases wrong : allowedBases &&& TBase.bin.value = 0
  · rw [if_pos wrong, if_pos wrong]
    rfl
  rw [if_neg wrong, if_neg wrong]
  -- `narrow_cast<T>` of a value below `2^64`
  have fits : binaryValue (cString digits) < 2 ^ 64 := by omega
  show narrowCast width (UInt64.ofNat (binaryValue (cString digits))) = _
  unfold narrowCast
  dsimp only
  rw [UInt64.toNat_ofNat_of_lt' (by rw [UInt64.size]; omega)]
  by_cases range : 2 ^ width ≤ binaryValue (cString digits)
  · rw [if_pos range, if_pos (by rw [Ne, Nat.mod_eq_iff_lt (pow_ne_zero _ (by decide))]; omega)]
  · rw [if_neg range, if_neg (by rw [not_not, Nat.mod_eq_iff_lt (pow_ne_zero _ (by decide))]; omega),
      Nat.mod_eq_of_lt (by omega)]

/-- `0b101` read into an 8-bit type with only binary allowed. -/
theorem toUnsigned_binary_of_byte :
    toUnsigned 8 (fun _ _ => none) ['0', 'b', '1', '0', '1'] TBase.bin.value =
      binarySpec 8 ['1', '0', '1'] TBase.bin.value :=
  toUnsigned_binary 8 (fun _ _ => none) (Or.inl rfl) ['1', '0', '1'] TBase.bin.value

set_option maxRecDepth 4000 in
/-- 65 significant bits are refused, 64 after leading zeros are not. -/
example : toUnsigned 64 (fun _ _ => none) ('0' :: 'B' :: '1' :: List.replicate 64 '0') 1 = .error .invalidInteger ∧
    toUnsigned 64 (fun _ _ => none) ('0' :: 'B' :: '0' :: '1' :: List.replicate 63 '0') 1 = .ok (2 ^ 63) := by
  decide

/-! ### The stream's extraction

`ss << s; ss >> result` with the checks of `ss.fail()` and `ss.peek()` after
it is the standard library's number parsing in the C locale, which the model
takes as the parameter `extract`.  What the conversions rely on it for is
stated here as named hypotheses, and the conversions' results on the forms
the stream parses follow from them. -/

/-- The radix of each base. -/
def TBase.radix : TBase → Nat
  | bin => 2
  | oct => 8
  | dec => 10
  | hex => 16

/-- A character as a digit of a radix up to 16: `0` to `9`, then `a` to `f`
or `A` to `F`. -/
def digitValue (c : Char) : Option Nat :=
  if '0' ≤ c ∧ c ≤ '9' then some (c.toNat - '0'.toNat)
  else if 'a' ≤ c ∧ c ≤ 'f' then some (c.toNat - 'a'.toNat + 10)
  else if 'A' ≤ c ∧ c ≤ 'F' then some (c.toNat - 'A'.toNat + 10)
  else none

/-- The value of digits of `radix` read after the value `carry`, most
significant first; `none` when a character is not such a digit. -/
def digitsValueFrom (radix : Nat) : Nat → List Char → Option Nat
  | carry, [] => some carry
  | carry, c :: rest =>
      match digitValue c with
      | some digit => if digit < radix then digitsValueFrom radix (radix * carry + digit) rest else none
      | none => none

/-- The value of a string of digits of `radix`. -/
def digitsValue (radix : Nat) (s : List Char) : Option Nat := digitsValueFrom radix 0 s

/-- What `ss >> result` into a `uintmax_t` under `std::oct`, `std::dec` or
`std::hex` does, with the two checks after it. -/
structure UnsignedExtraction (extract : TBase → List Char → Option UInt64) : Prop where
  /-- A nonempty string of digits of the base is taken whole, as its value,
  and a value past `uintmax_t` fails. -/
  digits : ∀ (base : TBase) (s : List Char) (value : Nat), s ≠ [] → digitsValue base.radix s = some value →
    extract base s = if value < 2 ^ 64 then some (UInt64.ofNat value) else none
  /-- Under `std::hex`, a `0x` or `0X` before the digits is skipped. -/
  hexPrefix : ∀ (x : Char) (s : List Char), (x = 'x' ∨ x = 'X') → s ≠ [] → (digitsValue 16 s).isSome →
    extract .hex ('0' :: x :: s) = extract .hex s

/-- What `ss >> result` into an `intmax_t` does, with the two checks after
it. -/
structure SignedExtraction (extract : List Char → Option Int64) : Prop where
  /-- A nonempty string of decimal digits is taken whole, as its value, and
  a value past `INTMAX_MAX` fails. -/
  digits : ∀ (s : List Char) (value : Nat), s ≠ [] → digitsValue 10 s = some value →
    extract s = if value < 2 ^ 63 then some (Int64.ofNat value) else none
  /-- So is one after a minus sign, negated, down to `INTMAX_MIN`. -/
  negative : ∀ (s : List Char) (value : Nat), s ≠ [] → digitsValue 10 s = some value →
    extract ('-' :: s) = if value ≤ 2 ^ 63 then some (Int64.ofInt (-value)) else none

/-- What `ToUnsigned<uintmax_t>` returns for a number the stream reads in
`base` with the value `value`. -/
def streamSpec (value : Nat) (base : TBase) (allowedBases : Nat) : Except TToIntegerError UInt64 :=
  if 2 ^ 64 ≤ value then .error .invalidInteger
  else if allowedBases &&& base.value = 0 then .error (.wrongBase base allowedBases)
  else .ok (UInt64.ofNat value)

section Digits

/-- Every digit comes after `/` in the character set, so after white space
and the minus sign. -/
theorem le_toNat_of_digitValue {c : Char} {digit : Nat} (isDigit : digitValue c = some digit) : 48 ≤ c.toNat := by
  unfold digitValue at isDigit
  split_ifs at isDigit with decimal lower upper
  · exact Nat.le_trans (by decide) decimal.1
  · exact Nat.le_trans (by decide) lower.1
  · exact Nat.le_trans (by decide) upper.1

theorem isSpace_of_le {c : Char} (big : 48 ≤ c.toNat) : isSpace c = false := by
  unfold isSpace
  simp only [Bool.or_eq_false_iff, decide_eq_false_iff_not]
  refine ⟨⟨⟨⟨⟨?_, ?_⟩, ?_⟩, ?_⟩, ?_⟩, ?_⟩ <;> rintro rfl <;> simp at big

/-- The first character of digits is a digit of the radix. -/
theorem digitsValueFrom_cons {radix carry value : Nat} {c : Char} {rest : List Char}
    (digits : digitsValueFrom radix carry (c :: rest) = some value) :
    ∃ digit, digitValue c = some digit ∧ digit < radix := by
  unfold digitsValueFrom at digits
  split at digits
  · rename_i digit isDigit
    split_ifs at digits with small
    exact ⟨digit, isDigit, small⟩
  · cases digits

/-- A digit is neither white space, nor a minus sign, nor NUL. -/
theorem digit_ne {c : Char} {digit : Nat} (isDigit : digitValue c = some digit) :
    isSpace c = false ∧ c ≠ '-' ∧ c ≠ '\x00' := by
  have big := le_toNat_of_digitValue isDigit
  refine ⟨isSpace_of_le big, ?_, ?_⟩ <;> rintro rfl <;> simp at big

/-- An octal digit is none of the characters that `ToUnsigned` looks for
after a leading `0`. -/
theorem octalDigit_ne {c : Char} {digit : Nat} (isDigit : digitValue c = some digit) (octal : digit < 8) :
    c ≠ '\x00' ∧ ¬(c = 'b' ∨ c = 'B') ∧ ¬(c = 'x' ∨ c = 'X') := by
  refine ⟨(digit_ne isDigit).2.2, ?_, ?_⟩ <;>
    rintro (rfl | rfl) <;> simp only [digitValue] at isDigit <;> simp at isDigit <;> omega

end Digits

section Unsigned

variable {extract : TBase → List Char → Option UInt64} (extraction : UnsignedExtraction extract)
  (allowedBases : Nat)

theorem streamToUnsigned_of_extract {base : TBase} {s : List Char} {value : Nat}
    (extracted : extract base s = if value < 2 ^ 64 then some (UInt64.ofNat value) else none) :
    streamToUnsigned extract base s allowedBases = streamSpec value base allowedBases := by
  unfold streamToUnsigned streamSpec
  rw [extracted]
  by_cases fits : value < 2 ^ 64
  · rw [if_pos fits, if_neg (by omega)]
  · rw [if_neg fits, if_pos (by omega)]

include extraction in
/-- A number not led by `0` is read by the stream in decimal. -/
theorem toUnsignedMax_decimal {d : Char} {rest : List Char} {value : Nat} (notZero : d ≠ '0')
    (digits : digitsValue 10 (d :: rest) = some value) :
    toUnsignedMax extract (d :: rest) allowedBases = streamSpec value .dec allowedBases := by
  obtain ⟨digit, isDigit, -⟩ := digitsValueFrom_cons digits
  obtain ⟨notSpace, notMinus, -⟩ := digit_ne isDigit
  have read : toUnsignedMax extract (d :: rest) allowedBases = streamToUnsigned extract .dec (d :: rest) allowedBases := by
    simp only [toUnsignedMax, current, List.headD_cons, notSpace, Bool.false_eq_true, if_false]
    split
    · rename_i minus; cases minus; exact absurd rfl notMinus
    · rename_i zero; cases zero; exact absurd rfl notZero
    · rfl
  rw [read, streamToUnsigned_of_extract allowedBases (extraction.digits .dec _ value (List.cons_ne_nil _ _) digits)]

include extraction in
/-- A number led by `0` and an octal digit is read by the stream in
octal, the `0` included. -/
theorem toUnsignedMax_octal {d : Char} {rest : List Char} {value : Nat}
    (digits : digitsValue 8 ('0' :: d :: rest) = some value) :
    toUnsignedMax extract ('0' :: d :: rest) allowedBases = streamSpec value .oct allowedBases := by
  have second : digitsValueFrom 8 0 (d :: rest) = some value := by
    simpa [digitsValue, digitsValueFrom, digitValue] using digits
  obtain ⟨digit, isDigit, octal⟩ := digitsValueFrom_cons second
  obtain ⟨notNul, notBinary, notHex⟩ := octalDigit_ne isDigit octal
  have notSpace : isSpace '0' = false := by decide
  simp only [toUnsignedMax, current, List.headD_cons, List.tail_cons, notSpace, Bool.false_eq_true, if_false]
  simp only [notNul, notBinary, notHex, if_false]
  exact streamToUnsigned_of_extract allowedBases (extraction.digits .oct _ value (List.cons_ne_nil _ _) digits)

include extraction in
/-- A number led by `0x` or `0X` is read by the stream in hexadecimal, the
prefix skipped. -/
theorem toUnsignedMax_hex {x : Char} (hexX : x = 'x' ∨ x = 'X') {s : List Char} {value : Nat}
    (nonempty : s ≠ []) (digits : digitsValue 16 s = some value) :
    toUnsignedMax extract ('0' :: x :: s) allowedBases = streamSpec value .hex allowedBases := by
  have notNul : x ≠ '\x00' := by rcases hexX with rfl | rfl <;> decide
  have notBinary : ¬(x = 'b' ∨ x = 'B') := by rcases hexX with rfl | rfl <;> decide
  have notSpace : isSpace '0' = false := by decide
  have extracted : extract .hex ('0' :: x :: s) = if value < 2 ^ 64 then some (UInt64.ofNat value) else none := by
    rw [extraction.hexPrefix x s hexX nonempty (by rw [digits]; rfl)]
    exact extraction.digits .hex s value nonempty digits
  simp only [toUnsignedMax, current, List.headD_cons, List.tail_cons, notSpace, Bool.false_eq_true, if_false]
  simp only [notNul, notBinary, hexX, if_false, if_true]
  exact streamToUnsigned_of_extract allowedBases extracted

end Unsigned

section Signed

variable {extract : List Char → Option Int64} (extraction : SignedExtraction extract)

include extraction in
/-- A decimal number not led by `0` is the stream's, or invalid past
`INTMAX_MAX`. -/
theorem toSignedMax_decimal {d : Char} {rest : List Char} {value : Nat} (notZero : d ≠ '0')
    (digits : digitsValue 10 (d :: rest) = some value) :
    toSignedMax extract (d :: rest) = if value < 2 ^ 63 then .ok (Int64.ofNat value) else .error .invalidInteger := by
  obtain ⟨digit, isDigit, -⟩ := digitsValueFrom_cons digits
  have notSpace := (digit_ne isDigit).1
  simp only [toSignedMax, current, List.headD_cons, notSpace, Bool.false_eq_true, if_false, notZero, false_and]
  rw [extraction.digits _ value (List.cons_ne_nil _ _) digits]
  split_ifs <;> rfl

include extraction in
/-- A minus sign and decimal digits are the stream's negative number, or
invalid past `INTMAX_MIN`. -/
theorem toSignedMax_negative {s : List Char} {value : Nat} (nonempty : s ≠ [])
    (digits : digitsValue 10 s = some value) :
    toSignedMax extract ('-' :: s) = if value ≤ 2 ^ 63 then .ok (Int64.ofInt (-value)) else .error .invalidInteger := by
  have notSpace : isSpace '-' = false := by decide
  have notZero : '-' ≠ '0' := by decide
  simp only [toSignedMax, current, List.headD_cons, notSpace, Bool.false_eq_true, if_false, notZero, false_and]
  rw [extraction.negative s value nonempty digits]
  split_ifs <;> rfl

end Signed

end Dory.Base
