/-
Module: Dory.Xml.Config.ConfigUtil
Purpose: The integer attributes of `Xml::Config::TAttrReader`
  (xml/config/config_util.{h,cc}).  `GetSigned<T>()`, `GetUnsigned<T>()` and
  their `Opt` variants read an attribute and trim its white space, strip a
  `k` or `m` suffix that the options allow (`ExtractMultiplier()`), convert
  the rest with `Base::ToSigned<intmax_t>` or `Base::ToUnsigned<uintmax_t>`
  (`Dory.Base.ToInteger`), check that the product with the multiplier fits
  by comparing with the limits divided by the multiplier (C++ division
  truncates), and narrow to `T`.  `intmax_t` and `uintmax_t` are `Int64` and
  `UInt64`; a type `T` is given by its width.  An attribute is absent (none)
  or its value; the element and the attribute's name, which every error
  reports alike, are left out.  Release builds define `NDEBUG`, so the
  asserts are not checked.  `signedAttrSpec` and `unsignedAttrSpec` state
  what the readers should return in mathematical integers, and
  `get_integer_attr_exact` says that they do.
Trusted boundary: none
Main exports: TOpts, trim, extractMultiplier, TAttrError, attrToIntMax,
  attrToUintMax, getString, getSigned, getUnsigned, getOptSigned,
  getOptUnsigned, splitAttr, signedAttrSpec, unsignedAttrSpec,
  get_integer_attr_exact
-/
import Dory.Base.ToInteger

namespace Dory.Xml.Config

open Dory.Base

/-! The bits of `TAttrReader::TOpts` that the integer readers use. -/

namespace TOpts

def requirePresence : Nat := 1 <<< 0

def strictEmptyValue : Nat := 1 <<< 1

def trimWhitespace : Nat := 1 <<< 2

def throwIfEmpty : Nat := 1 <<< 3

def allowK : Nat := 1 <<< 5

def allowM : Nat := 1 <<< 6

end TOpts

/-- `boost::algorithm::trim_right`, with `std::isspace` of the C locale. -/
def trimRight (s : List Char) : List Char :=
  (s.reverse.dropWhile isSpace).reverse

/-- `boost::algorithm::trim`. -/
def trim (s : List Char) : List Char :=
  trimRight (s.dropWhile isSpace)

/-- `ExtractMultiplier(value, opts)`: a last `k` or `K` (`m` or `M`) that the
options allow, after at least one other character, is removed with the white
space before it, for a multiplier of 1024 (1024 * 1024). -/
def extractMultiplier (value : List Char) (opts : Nat) : Nat × List Char :=
  if value.length > 1 then
    let mult :=
      match value.getLast? with
      | some 'k' | some 'K' => if opts &&& TOpts.allowK ≠ 0 then 1024 else 1
      | some 'm' | some 'M' => if opts &&& TOpts.allowM ≠ 0 then 1024 * 1024 else 1
      | _ => 1
    if mult ≠ 1 then (mult, trimRight value.dropLast) else (mult, value)
  else (1, value)

/-- What the integer readers throw, with the attribute text each reports. -/
inductive TAttrError where
  | missingAttrValue
  | invalidSignedIntegerAttr (value : List Char)
  | invalidUnsignedIntegerAttr (value : List Char)
  | wrongUnsignedIntegerBase (value : List Char) (found : TBase) (allowed : Nat)
  | attrOutOfRange (value : List Char)
deriving DecidableEq, Repr

/-- `std::numeric_limits<uintmax_t>::max()`. -/
def uintMaxMax : UInt64 := UInt64.ofNat (2 ^ 64 - 1)

/-- `AttrToIntMax(attr, elem, attr_name, opts)`: the conversion's errors
reported for the whole attribute, and a product outside `intmax_t` refused
by comparing the value with the limits divided by the multiplier. -/
def attrToIntMax (extract : List Char → Option Int64) (attr : List Char) (opts : Nat) : Except TAttrError Int64 := do
  let (mult, attrCopy) := extractMultiplier attr opts
  let mult : Int64 := Int64.ofNat mult
  let value ← match toSignedMax extract attrCopy with
    | .ok value => pure value
    | .error .invalidInteger => throw (.invalidSignedIntegerAttr attr)
    -- the catch of `std::range_error`
    | .error _ => throw (.attrOutOfRange attr)
  if value < Int64.minValue / mult ∨ value > Int64.maxValue / mult then throw (.attrOutOfRange attr)
  else pure (value * mult)

/-- `AttrToUintMax(attr, elem, attr_name, allowed_bases, opts)`. -/
def attrToUintMax (extract : TBase → List Char → Option UInt64) (attr : List Char) (allowedBases opts : Nat) :
    Except TAttrError UInt64 := do
  let (mult, attrCopy) := extractMultiplier attr opts
  let mult : UInt64 := UInt64.ofNat mult
  let value ← match toUnsignedMax extract attrCopy allowedBases with
    | .ok value => pure value
    | .error .invalidInteger => throw (.invalidUnsignedIntegerAttr attr)
    | .error (.wrongBase found allowed) => throw (.wrongUnsignedIntegerBase attr found allowed)
    | .error .rangeError => throw (.attrOutOfRange attr)
  if value > uintMaxMax / mult then throw (.attrOutOfRange attr)
  else pure (value * mult)

/-- `GetString(elem, attr_name, opts)`: an absent attribute is missing, and
so is an empty one under `THROW_IF_EMPTY`. -/
def getString (attr : Option (List Char)) (opts : Nat) : Except TAttrError (List Char) :=
  match attr with
  | none => throw .missingAttrValue
  | some value =>
      let value := if opts &&& TOpts.trimWhitespace ≠ 0 then trim value else value
      if opts &&& TOpts.throwIfEmpty ≠ 0 ∧ value.isEmpty then throw .missingAttrValue else pure value

/-- `GetIntMaxAttr(elem, attr_name, opts)`. -/
def getIntMaxAttr (extract : List Char → Option Int64) (attr : Option (List Char)) (opts : Nat) :
    Except TAttrError Int64 := do
  let s ← getString attr (TOpts.trimWhitespace ||| TOpts.throwIfEmpty)
  attrToIntMax extract s opts

/-- `GetUintMaxAttr(elem, attr_name, allowed_bases, opts)`. -/
def getUintMaxAttr (extract : TBase → List Char → Option UInt64) (attr : Option (List Char)) (allowedBases opts : Nat) :
    Except TAttrError UInt64 := do
  let s ← getString attr (TOpts.trimWhitespace ||| TOpts.throwIfEmpty)
  attrToUintMax extract s allowedBases opts

/-- `narrow<T>(wide)` to a signed `T` of `width` bits: the value cast to `T`
must cast back to itself; otherwise `TAttrOutOfRange` reports the value in
decimal (`std::to_string`). -/
def narrowSigned (width : Nat) (wide : Int64) : Except TAttrError Int :=
  let result := wide.toInt.bmod (2 ^ width)
  if result ≠ wide.toInt then throw (.attrOutOfRange (toString wide.toInt).toList) else pure result

/-- `narrow<T>(wide)` to an unsigned `T` of `width` bits. -/
def narrowUnsigned (width : Nat) (wide : UInt64) : Except TAttrError Nat :=
  let result := wide.toNat % 2 ^ width
  if result ≠ wide.toNat then throw (.attrOutOfRange (toString wide.toNat).toList) else pure result

/-- `GetSigned<T>(elem, attr_name, opts)` for a signed `T` of `width` bits.
For `intmax_t` itself the specialization returns the value without `narrow`,
which at 64 bits keeps every value (`narrowSigned_sixtyFour`). -/
def getSigned (width : Nat) (extract : List Char → Option Int64) (attr : Option (List Char)) (opts : Nat) :
    Except TAttrError Int := do
  let wide ← getIntMaxAttr extract attr opts
  narrowSigned width wide

/-- `GetUnsigned<T>(elem, attr_name, allowed_bases, opts)` for an unsigned
`T` of `width` bits. -/
def getUnsigned (width : Nat) (extract : TBase → List Char → Option UInt64) (attr : Option (List Char))
    (allowedBases opts : Nat) : Except TAttrError Nat := do
  let wide ← getUintMaxAttr extract attr allowedBases opts
  narrowUnsigned width wide

/-- `GetOptInAttrHelper(elem, attr_name, empty_value_name, opts)`: an absent
attribute is none, or missing under `REQUIRE_PRESENCE`; an empty one is
none, or missing under `STRICT_EMPTY_VALUE` when there is an empty value
name; the empty value name itself is none. -/
def getOptInAttrHelper (attr : Option (List Char)) (emptyValueName : Option (List Char)) (opts : Nat) :
    Except TAttrError (Option (List Char)) :=
  -- `GetOptString(elem, attr_name, TRIM_WHITESPACE)`
  match attr.map trim with
  | none => if opts &&& TOpts.requirePresence ≠ 0 then throw .missingAttrValue else pure none
  | some value =>
      if value.isEmpty then
        if emptyValueName.isSome ∧ opts &&& TOpts.strictEmptyValue ≠ 0 then throw .missingAttrValue else pure none
      else if emptyValueName ≠ some value then pure (some value)
      else pure none

/-- `GetOptSigned<T>(elem, attr_name, empty_value_name, opts)`. -/
def getOptSigned (width : Nat) (extract : List Char → Option Int64) (attr : Option (List Char))
    (emptyValueName : Option (List Char)) (opts : Nat) : Except TAttrError (Option Int) := do
  match ← getOptInAttrHelper attr emptyValueName opts with
  | none => pure none
  | some value =>
      let wide ← attrToIntMax extract value opts
      some <$> narrowSigned width wide

/-- `GetOptUnsigned<T>(elem, attr_name, empty_value_name, allowed_bases, opts)`. -/
def getOptUnsigned (width : Nat) (extract : TBase → List Char → Option UInt64) (attr : Option (List Char))
    (emptyValueName : Option (List Char)) (allowedBases opts : Nat) : Except TAttrError (Option Nat) := do
  match ← getOptInAttrHelper attr emptyValueName opts with
  | none => pure none
  | some value =>
      let wide ← attrToUintMax extract value allowedBases opts
      some <$> narrowUnsigned width wide

/-! ### How an attribute reads, stated on its own -/

/-- The multiplier of a suffix that the options allow. -/
def suffixMultiplier (opts : Nat) : Char → Option Nat
  | 'k' | 'K' => if opts &&& TOpts.allowK ≠ 0 then some 1024 else none
  | 'm' | 'M' => if opts &&& TOpts.allowM ≠ 0 then some 1048576 else none
  | _ => none

/-- A trimmed attribute read as digits `d`, optional white space and a
suffix that the options allow, after a nonempty `d`: `d` and the suffix's
multiplier; otherwise the whole string, with multiplier 1. -/
def splitAttr (opts : Nat) (value : List Char) : List Char × Nat :=
  match value.getLast?.bind (suffixMultiplier opts) with
  | some mult => if value.length > 1 then (trimRight value.dropLast, mult) else (value, 1)
  | none => (value, 1)

theorem suffixMultiplier_eq_some {opts : Nat} {c : Char} {mult : Nat} (suffix : suffixMultiplier opts c = some mult) :
    mult = 1024 ∨ mult = 1048576 := by
  unfold suffixMultiplier at suffix
  split at suffix <;> (try split_ifs at suffix) <;> simp_all

/-- The multipliers a suffix gives. -/
theorem splitAttr_mult (opts : Nat) (value : List Char) :
    (splitAttr opts value).2 = 1 ∨ (splitAttr opts value).2 = 1024 ∨ (splitAttr opts value).2 = 1048576 := by
  unfold splitAttr
  split
  · next mult suffix =>
      obtain ⟨c, -, found⟩ := Option.bind_eq_some_iff.mp suffix
      split_ifs
      · exact Or.inr (suffixMultiplier_eq_some found)
      · exact Or.inl rfl
  · exact Or.inl rfl

/-- `ExtractMultiplier()` splits the attribute as `splitAttr` reads it. -/
theorem extractMultiplier_eq (value : List Char) (opts : Nat) :
    extractMultiplier value opts = ((splitAttr opts value).2, (splitAttr opts value).1) := by
  unfold extractMultiplier splitAttr
  by_cases long : value.length > 1
  · rw [if_pos long]
    dsimp only
    -- one case per arm of the `switch` on the last character
    split
    next last =>
      by_cases allowed : opts &&& TOpts.allowK = 0 <;> simp [last, suffixMultiplier, allowed, long]
    next last =>
      by_cases allowed : opts &&& TOpts.allowK = 0 <;> simp [last, suffixMultiplier, allowed, long]
    next last =>
      by_cases allowed : opts &&& TOpts.allowM = 0 <;> simp [last, suffixMultiplier, allowed, long]
    next last =>
      by_cases allowed : opts &&& TOpts.allowM = 0 <;> simp [last, suffixMultiplier, allowed, long]
    next notK notUpperK notM notUpperM =>
      have noSuffix : value.getLast?.bind (suffixMultiplier opts) = none := by
        rcases last : value.getLast? with _ | c
        · rfl
        · simp only [Option.bind_some]
          unfold suffixMultiplier
          split <;> simp_all
      simp [noSuffix]
  · rw [if_neg long]
    split <;> simp [long]

/-! ### The range checks -/

section Range

variable {mult : Nat}

/-- The range check of `AttrToIntMax()` is exact: dividing the limits by the
multiplier, which truncates, refuses exactly the products outside
`intmax_t`. -/
theorem intMax_guard_iff (value : Int64) (multiplier : mult = 1 ∨ mult = 1024 ∨ mult = 1048576) :
    (value < Int64.minValue / Int64.ofNat mult ∨ value > Int64.maxValue / Int64.ofNat mult) ↔
      (value.toInt * mult < -2 ^ 63 ∨ 2 ^ 63 ≤ value.toInt * mult) := by
  have low := Int64.le_toInt value
  have high := Int64.toInt_lt value
  rw [gt_iff_lt, Int64.lt_iff_toInt_lt, Int64.lt_iff_toInt_lt]
  -- the limits divided by each multiplier
  rcases multiplier with rfl | rfl | rfl
  · have minDiv : (Int64.minValue / Int64.ofNat 1).toInt = -2 ^ 63 := by decide
    have maxDiv : (Int64.maxValue / Int64.ofNat 1).toInt = 2 ^ 63 - 1 := by decide
    rw [minDiv, maxDiv]
    omega
  · have minDiv : (Int64.minValue / Int64.ofNat 1024).toInt = -2 ^ 53 := by decide
    have maxDiv : (Int64.maxValue / Int64.ofNat 1024).toInt = 2 ^ 53 - 1 := by decide
    rw [minDiv, maxDiv]
    omega
  · have minDiv : (Int64.minValue / Int64.ofNat 1048576).toInt = -2 ^ 43 := by decide
    have maxDiv : (Int64.maxValue / Int64.ofNat 1048576).toInt = 2 ^ 43 - 1 := by decide
    rw [minDiv, maxDiv]
    omega

/-- A product that passes the check does not overflow. -/
theorem toInt_mul_of_fits (value : Int64) (multiplier : mult = 1 ∨ mult = 1024 ∨ mult = 1048576)
    (fits : ¬ (value.toInt * mult < -2 ^ 63 ∨ 2 ^ 63 ≤ value.toInt * mult)) :
    (value * Int64.ofNat mult).toInt = value.toInt * mult := by
  have exact : (Int64.ofNat mult).toInt = mult := by
    rcases multiplier with rfl | rfl | rfl <;> decide
  rw [Int64.toInt_mul, exact]
  exact Int.bmod_eq_of_le (by omega) (by omega)

/-- The range check of `AttrToUintMax()` is exact. -/
theorem uintMax_guard_iff (value : UInt64) (multiplier : mult = 1 ∨ mult = 1024 ∨ mult = 1048576) :
    value > uintMaxMax / UInt64.ofNat mult ↔ 2 ^ 64 ≤ value.toNat * mult := by
  have exact : (UInt64.ofNat mult).toNat = mult := by
    rcases multiplier with rfl | rfl | rfl <;> decide
  have positive : 0 < mult := by omega
  have maxNat : uintMaxMax.toNat = 2 ^ 64 - 1 := by decide
  rw [gt_iff_lt, UInt64.lt_iff_toNat_lt, UInt64.toNat_div, exact, maxNat, Nat.div_lt_iff_lt_mul positive]
  omega

theorem toNat_mul_of_fits (value : UInt64) (multiplier : mult = 1 ∨ mult = 1024 ∨ mult = 1048576)
    (fits : ¬ 2 ^ 64 ≤ value.toNat * mult) :
    (value * UInt64.ofNat mult).toNat = value.toNat * mult := by
  have exact : (UInt64.ofNat mult).toNat = mult := by
    rcases multiplier with rfl | rfl | rfl <;> decide
  rw [UInt64.toNat_mul, exact]
  exact Nat.mod_eq_of_lt (by omega)

end Range

/-- `narrow` to a signed `T` keeps a value exactly when `T` holds it. -/
theorem narrowSigned_eq {width : Nat} (widthPos : 0 < width) (wide : Int64) :
    narrowSigned width wide =
      if wide.toInt < -2 ^ (width - 1) ∨ 2 ^ (width - 1) ≤ wide.toInt then
        .error (.attrOutOfRange (toString wide.toInt).toList)
      else .ok wide.toInt := by
  have double : ((2 ^ width : Nat) : Int) = 2 * 2 ^ (width - 1) := by
    rw [Nat.cast_pow, Nat.cast_ofNat, ← pow_succ']
    congr 1
    omega
  have low := Int.le_bmod (x := wide.toInt) (m := 2 ^ width) (by positivity)
  have high := Int.bmod_lt (x := wide.toInt) (m := 2 ^ width) (by positivity)
  rw [double] at low high
  unfold narrowSigned
  by_cases outside : wide.toInt < -2 ^ (width - 1) ∨ 2 ^ (width - 1) ≤ wide.toInt
  · -- the cast wraps around
    have moved : wide.toInt.bmod (2 ^ width) ≠ wide.toInt := by
      intro same
      rw [same] at low high
      omega
    rw [if_pos moved, if_pos outside]
    rfl
  · have kept : wide.toInt.bmod (2 ^ width) = wide.toInt :=
      Int.bmod_eq_of_le (by rw [double]; omega) (by rw [double]; omega)
    rw [if_neg (not_not.mpr kept), if_neg outside, kept]
    rfl

/-- `narrow` to an unsigned `T` keeps a value exactly when `T` holds it. -/
theorem narrowUnsigned_eq (width : Nat) (wide : UInt64) :
    narrowUnsigned width wide =
      if 2 ^ width ≤ wide.toNat then .error (.attrOutOfRange (toString wide.toNat).toList)
      else .ok wide.toNat := by
  unfold narrowUnsigned
  by_cases outside : 2 ^ width ≤ wide.toNat
  · have moved : wide.toNat % 2 ^ width ≠ wide.toNat :=
      fun same => absurd (same ▸ Nat.mod_lt wide.toNat (by positivity)) (Nat.not_lt.mpr outside)
    rw [if_pos moved, if_pos outside]
    rfl
  · have kept : wide.toNat % 2 ^ width = wide.toNat := Nat.mod_eq_of_lt (Nat.lt_of_not_le outside)
    rw [if_neg (not_not.mpr kept), if_neg outside, kept]
    rfl

/-! ### The readers against that reading -/

/-- What `GetSigned<T>()` should do with a trimmed attribute, for `T` of
`width` bits: an empty attribute is missing; otherwise, with `d` and `m` as
`splitAttr` reads them, `v * m` for `v` the value of `d`, when the product
fits `intmax_t` and `T`. -/
def signedAttrSpec (width : Nat) (extract : List Char → Option Int64) (opts : Nat) (value : List Char) :
    Except TAttrError Int :=
  if value = [] then .error .missingAttrValue
  else
    match toSignedMax extract (splitAttr opts value).1 with
    | .error _ => .error (.invalidSignedIntegerAttr value)
    | .ok digits =>
        if digits.toInt * (splitAttr opts value).2 < -2 ^ 63 ∨ 2 ^ 63 ≤ digits.toInt * (splitAttr opts value).2 then
          .error (.attrOutOfRange value)
        else if digits.toInt * (splitAttr opts value).2 < -2 ^ (width - 1) ∨
            2 ^ (width - 1) ≤ digits.toInt * (splitAttr opts value).2 then
          .error (.attrOutOfRange (toString (digits.toInt * (splitAttr opts value).2)).toList)
        else .ok (digits.toInt * (splitAttr opts value).2)

/-- What `GetUnsigned<T>()` should do with a trimmed attribute, for `T` of
`width` bits. -/
def unsignedAttrSpec (width : Nat) (extract : TBase → List Char → Option UInt64) (allowedBases opts : Nat)
    (value : List Char) : Except TAttrError Nat :=
  if value = [] then .error .missingAttrValue
  else
    match toUnsignedMax extract (splitAttr opts value).1 allowedBases with
    | .error .invalidInteger => .error (.invalidUnsignedIntegerAttr value)
    | .error (.wrongBase found allowed) => .error (.wrongUnsignedIntegerBase value found allowed)
    | .error .rangeError => .error (.attrOutOfRange value)
    | .ok digits =>
        if 2 ^ 64 ≤ digits.toNat * (splitAttr opts value).2 then .error (.attrOutOfRange value)
        else if 2 ^ width ≤ digits.toNat * (splitAttr opts value).2 then
          .error (.attrOutOfRange (toString (digits.toNat * (splitAttr opts value).2)).toList)
        else .ok (digits.toNat * (splitAttr opts value).2)

/-- `GetString()` as the integer readers call it: the trimmed attribute,
missing when it is empty. -/
theorem getString_trimmed (raw : List Char) :
    getString (some raw) (TOpts.trimWhitespace ||| TOpts.throwIfEmpty) =
      if trim raw = [] then .error .missingAttrValue else .ok (trim raw) := by
  have trimming : (TOpts.trimWhitespace ||| TOpts.throwIfEmpty) &&& TOpts.trimWhitespace ≠ 0 := by decide
  have throwing : (TOpts.trimWhitespace ||| TOpts.throwIfEmpty) &&& TOpts.throwIfEmpty ≠ 0 := by decide
  unfold getString
  simp only [if_pos trimming, throwing, ne_eq, not_false_eq_true, true_and, List.isEmpty_iff]
  split_ifs <;> rfl

section Readers

variable (extract : List Char → Option Int64) (opts : Nat)

/-- `AttrToIntMax()` in mathematical integers: the product with the
multiplier when it fits `intmax_t`. -/
theorem attrToIntMax_eq (value : List Char) :
    attrToIntMax extract value opts =
      match toSignedMax extract (splitAttr opts value).1 with
      | .error _ => .error (.invalidSignedIntegerAttr value)
      | .ok digits =>
          if digits.toInt * (splitAttr opts value).2 < -2 ^ 63 ∨ 2 ^ 63 ≤ digits.toInt * (splitAttr opts value).2 then
            .error (.attrOutOfRange value)
          else .ok (digits * Int64.ofNat (splitAttr opts value).2) := by
  have multiplier := splitAttr_mult opts value
  unfold attrToIntMax
  rw [extractMultiplier_eq]
  dsimp only
  rcases converted : toSignedMax extract (splitAttr opts value).1 with error | digits
  · rw [toSignedMax_error extract _ converted]
    rfl
  · simp only [← intMax_guard_iff digits multiplier]
    rfl

end Readers

/-- `AttrToUintMax()` in natural numbers: the product with the multiplier
when it fits `uintmax_t`. -/
theorem attrToUintMax_eq (extract : TBase → List Char → Option UInt64) (allowedBases opts : Nat) (value : List Char) :
    attrToUintMax extract value allowedBases opts =
      match toUnsignedMax extract (splitAttr opts value).1 allowedBases with
      | .error .invalidInteger => .error (.invalidUnsignedIntegerAttr value)
      | .error (.wrongBase found allowed) => .error (.wrongUnsignedIntegerBase value found allowed)
      | .error .rangeError => .error (.attrOutOfRange value)
      | .ok digits =>
          if 2 ^ 64 ≤ digits.toNat * (splitAttr opts value).2 then .error (.attrOutOfRange value)
          else .ok (digits * UInt64.ofNat (splitAttr opts value).2) := by
  have multiplier := splitAttr_mult opts value
  unfold attrToUintMax
  rw [extractMultiplier_eq]
  dsimp only
  rcases converted : toUnsignedMax extract (splitAttr opts value).1 allowedBases with error | digits
  · cases error <;> rfl
  · simp only [← uintMax_guard_iff digits multiplier]
    rfl

/-- `GetSigned<T>()` of a present attribute does what `signedAttrSpec`
says. -/
theorem getSigned_eq {width : Nat} (widthPos : 0 < width) (extract : List Char → Option Int64) (raw : List Char)
    (opts : Nat) : getSigned width extract (some raw) opts = signedAttrSpec width extract opts (trim raw) := by
  unfold getSigned getIntMaxAttr signedAttrSpec
  rw [getString_trimmed]
  by_cases empty : trim raw = []
  · rw [if_pos empty, if_pos empty]
    rfl
  · rw [if_neg empty, if_neg empty]
    show (attrToIntMax extract (trim raw) opts >>= narrowSigned width) = _
    rw [attrToIntMax_eq]
    have multiplier := splitAttr_mult opts (trim raw)
    rcases toSignedMax extract (splitAttr opts (trim raw)).1 with error | digits
    · rfl
    · dsimp only
      -- first the `intmax_t` check, then the narrowing to `T`
      by_cases wide : digits.toInt * (splitAttr opts (trim raw)).2 < -2 ^ 63 ∨
          2 ^ 63 ≤ digits.toInt * (splitAttr opts (trim raw)).2
      · rw [if_pos wide, if_pos wide]
        rfl
      · rw [if_neg wide, if_neg wide]
        show narrowSigned width (digits * Int64.ofNat (splitAttr opts (trim raw)).2) = _
        rw [narrowSigned_eq widthPos, toInt_mul_of_fits digits multiplier wide]

/-- `GetUnsigned<T>()` of a present attribute does what `unsignedAttrSpec`
says. -/
theorem getUnsigned_eq (width : Nat) (extract : TBase → List Char → Option UInt64) (raw : List Char)
    (allowedBases opts : Nat) :
    getUnsigned width extract (some raw) allowedBases opts = unsignedAttrSpec width extract allowedBases opts (trim raw) := by
  unfold getUnsigned getUintMaxAttr unsignedAttrSpec
  rw [getString_trimmed]
  by_cases empty : trim raw = []
  · rw [if_pos empty, if_pos empty]
    rfl
  · rw [if_neg empty, if_neg empty]
    show (attrToUintMax extract (trim raw) allowedBases opts >>= narrowUnsigned width) = _
    rw [attrToUintMax_eq]
    have multiplier := splitAttr_mult opts (trim raw)
    rcases toUnsignedMax extract (splitAttr opts (trim raw)).1 allowedBases with error | digits
    · cases error <;> rfl
    · dsimp only
      by_cases wide : 2 ^ 64 ≤ digits.toNat * (splitAttr opts (trim raw)).2
      · rw [if_pos wide, if_pos wide]
        rfl
      · rw [if_neg wide, if_neg wide]
        show narrowUnsigned width (digits * UInt64.ofNat (splitAttr opts (trim raw)).2) = _
        rw [narrowUnsigned_eq, toNat_mul_of_fits digits multiplier wide]

/-- `GetOptInAttrHelper()` passes on a nonempty trimmed attribute that is
not the empty value name. -/
theorem getOptInAttrHelper_of_value {raw : List Char} {emptyValueName : Option (List Char)} (nonempty : trim raw ≠ [])
    (named : emptyValueName ≠ some (trim raw)) (opts : Nat) :
    getOptInAttrHelper (some raw) emptyValueName opts = .ok (some (trim raw)) := by
  have notEmpty : (trim raw).isEmpty ≠ true := by
    simpa [List.isEmpty_iff] using nonempty
  unfold getOptInAttrHelper
  rw [Option.map_some]
  dsimp only
  rw [if_neg notEmpty, if_pos named]
  rfl

theorem getOptSigned_eq {width : Nat} (widthPos : 0 < width) (extract : List Char → Option Int64) {raw : List Char}
    {emptyValueName : Option (List Char)} (nonempty : trim raw ≠ []) (named : emptyValueName ≠ some (trim raw))
    (opts : Nat) :
    getOptSigned width extract (some raw) emptyValueName opts = some <$> signedAttrSpec width extract opts (trim raw) := by
  rw [← getSigned_eq widthPos]
  unfold getOptSigned getSigned getIntMaxAttr
  rw [getOptInAttrHelper_of_value nonempty named, getString_trimmed, if_neg nonempty]
  show (attrToIntMax extract (trim raw) opts >>= fun wide => some <$> narrowSigned width wide) =
    some <$> (attrToIntMax extract (trim raw) opts >>= narrowSigned width)
  rcases attrToIntMax extract (trim raw) opts with error | wide
  · rfl
  · rfl

theorem getOptUnsigned_eq (width : Nat) (extract : TBase → List Char → Option UInt64) {raw : List Char}
    {emptyValueName : Option (List Char)} (nonempty : trim raw ≠ []) (named : emptyValueName ≠ some (trim raw))
    (allowedBases opts : Nat) :
    getOptUnsigned width extract (some raw) emptyValueName allowedBases opts =
      some <$> unsignedAttrSpec width extract allowedBases opts (trim raw) := by
  rw [← getUnsigned_eq]
  unfold getOptUnsigned getUnsigned getUintMaxAttr
  rw [getOptInAttrHelper_of_value nonempty named, getString_trimmed, if_neg nonempty]
  show (attrToUintMax extract (trim raw) allowedBases opts >>= fun wide => some <$> narrowUnsigned width wide) =
    some <$> (attrToUintMax extract (trim raw) allowedBases opts >>= narrowUnsigned width)
  rcases attrToUintMax extract (trim raw) allowedBases opts with error | wide
  · rfl
  · rfl

/-- For every attribute string, every option set and every integer type:
`GetSigned<T>()` and `GetUnsigned<T>()` return `v * m` exactly when the
trimmed string is digits `d`, optional white space and an allowed suffix of
multiplier `m` (or `d` alone, `m = 1`) with `d` converting to `v` and `v * m`
held by `intmax_t` (`uintmax_t`) and by `T`, computed without overflow; they
throw `TAttrOutOfRange` when `d` converts but the product is not held, the
conversion's error for the whole string when `d` does not convert, and
`TMissingAttrValue` when the trimmed string is empty.  The `Opt` variants do
the same for nonempty values other than the empty value name. -/
theorem get_integer_attr_exact (width : Nat) (widthPos : 0 < width) (extractSigned : List Char → Option Int64)
    (extractUnsigned : TBase → List Char → Option UInt64) (raw : List Char) (emptyValueName : Option (List Char))
    (allowedBases opts : Nat) :
    getSigned width extractSigned (some raw) opts = signedAttrSpec width extractSigned opts (trim raw) ∧
      getUnsigned width extractUnsigned (some raw) allowedBases opts =
        unsignedAttrSpec width extractUnsigned allowedBases opts (trim raw) ∧
      (trim raw ≠ [] → emptyValueName ≠ some (trim raw) →
        getOptSigned width extractSigned (some raw) emptyValueName opts =
            some <$> signedAttrSpec width extractSigned opts (trim raw) ∧
          getOptUnsigned width extractUnsigned (some raw) emptyValueName allowedBases opts =
            some <$> unsignedAttrSpec width extractUnsigned allowedBases opts (trim raw)) :=
  ⟨getSigned_eq widthPos extractSigned raw opts, getUnsigned_eq width extractUnsigned raw allowedBases opts,
    fun nonempty named =>
      ⟨getOptSigned_eq widthPos extractSigned nonempty named opts,
        getOptUnsigned_eq width extractUnsigned nonempty named allowedBases opts⟩⟩

/-- ` 10 k` with `ALLOW_K`, read into a 16-bit type by a conversion that
knows `10`. -/
theorem get_integer_attr_exact_ten_k :
    0 < 16 ∧
      (getSigned 16 (fun s => if s = ['1', '0'] then some 10 else none) (some [' ', '1', '0', ' ', 'k']) TOpts.allowK =
          signedAttrSpec 16 (fun s => if s = ['1', '0'] then some 10 else none) TOpts.allowK
            (trim [' ', '1', '0', ' ', 'k']) ∧
        getUnsigned 16 (fun _ s => if s = ['1', '0'] then some 10 else none) (some [' ', '1', '0', ' ', 'k'])
            TBase.dec.value TOpts.allowK =
          unsignedAttrSpec 16 (fun _ s => if s = ['1', '0'] then some 10 else none) TBase.dec.value TOpts.allowK
            (trim [' ', '1', '0', ' ', 'k']) ∧
        (trim [' ', '1', '0', ' ', 'k'] ≠ [] → none ≠ some (trim [' ', '1', '0', ' ', 'k']) →
          getOptSigned 16 (fun s => if s = ['1', '0'] then some 10 else none) (some [' ', '1', '0', ' ', 'k']) none
              TOpts.allowK =
            some <$> signedAttrSpec 16 (fun s => if s = ['1', '0'] then some 10 else none) TOpts.allowK
              (trim [' ', '1', '0', ' ', 'k']) ∧
          getOptUnsigned 16 (fun _ s => if s = ['1', '0'] then some 10 else none) (some [' ', '1', '0', ' ', 'k']) none
              TBase.dec.value TOpts.allowK =
            some <$> unsignedAttrSpec 16 (fun _ s => if s = ['1', '0'] then some 10 else none) TBase.dec.value
              TOpts.allowK (trim [' ', '1', '0', ' ', 'k']))) :=
  ⟨by decide, get_integer_attr_exact 16 (by decide) _ _ _ none TBase.dec.value TOpts.allowK⟩

example : getSigned 16 (fun s => if s = ['1', '0'] then some 10 else none) (some [' ', '1', '0', ' ', 'k']) TOpts.allowK =
    .ok 10240 := by
  decide

/-- An attribute of white space alone is missing: `GetSigned<T>()` throws
`TMissingAttrValue`, not the invalid-integer error for the string. -/
theorem getSigned_blank_missing :
    getSigned 32 (fun _ => none) (some [' ', ' ']) 0 = .error .missingAttrValue ∧
      getSigned 32 (fun _ => none) (some [' ', ' ']) 0 ≠ .error (.invalidSignedIntegerAttr [' ', ' ']) := by
  decide

end Dory.Xml.Config
