import Part21.Number.Numeral

set_option autoImplicit false

/-!
# Real numbers of double precision

A real of the format is a binary number of 64 bits.  It is kept as its sign and
its code: the 63 bits below the sign, read as a number.  Codes ascend with the
magnitude they stand for, infinity comes behind all finite magnitudes and the
codes beyond it are not numbers.

Everything here is exact arithmetic on natural numbers.  `ofRatio` rounds a
quotient to the nearest real, a tie to the one with an even code; the reading of
decimals and the conversion of integers are two uses of it.

Real literals are in section 4.1 of `SPEC_FULL.md`, and integers are accepted as reals in
its B.3.
-/

namespace Part21

/-- How many codes there are: two to the power of 63. -/
def Binary64.codeCount : Nat := 0x8000000000000000

/-- How many codes share a position: two to the power of 52. -/
def Binary64.stride : Nat := 0x10000000000000

/-- A number of double precision: sign and code of the magnitude. -/
structure Binary64 where
  negative : Bool
  code : Nat
  isLt : code < Binary64.codeCount
  deriving DecidableEq

namespace Binary64

/-- Zero, the positive one. -/
def zero : Binary64 := ⟨false, 0, by decide⟩

/-- The code of infinity. -/
def infinityCode : Nat := 0x7ff0000000000000

theorem infinityCode_lt : infinityCode < codeCount := by decide

/-- Infinity with a sign. -/
def infinity (negative : Bool) : Binary64 := ⟨negative, infinityCode, infinityCode_lt⟩

/-- The 64 bits as a number, the sign as the highest bit. -/
def bits (x : Binary64) : Nat := (if x.negative then codeCount else 0) + x.code

/-- The real with given bits; higher bits are ignored. -/
def ofBits (n : Nat) : Binary64 :=
  ⟨n / codeCount % 2 == 1, n % codeCount, Nat.mod_lt _ (by decide)⟩

/-- Neither a finite number nor an infinity. -/
def isNaN (x : Binary64) : Bool := infinityCode < x.code

/-- One of the two infinities. -/
def isInfinite (x : Binary64) : Bool := x.code == infinityCode

/-- Both numbers, and the same number: the two zeros are the same. -/
def same (x y : Binary64) : Bool :=
  !x.isNaN && !y.isNaN && x.code == y.code && (x.negative == y.negative || x.code == 0)

/-- The magnitude of a finite real is `significand * 2 ^ (position - 1074)`. -/
def significand (x : Binary64) : Nat :=
  if x.code < stride then x.code else stride + x.code % stride

/-- See `significand`. -/
def position (x : Binary64) : Nat := x.code / stride - 1

/-! ## Rounding a quotient -/

/-- `numerator / denominator` as a natural number, to the nearest and a tie to
the even one. -/
def nearest (numerator denominator : Nat) : Nat :=
  let quotient := numerator / denominator
  let twice := 2 * (numerator % denominator)
  if twice < denominator then quotient
  else if denominator < twice then quotient + 1
  else if quotient % 2 = 0 then quotient
  else quotient + 1

/-- The exponent of the highest power of two that is not above
`numerator / denominator`, plus 1074; 0 for everything below. -/
def scale (numerator denominator : Nat) : Nat :=
  let lifted := numerator * Nat.pow 2 1074 / denominator
  lifted.log2

/-- The code of the magnitude next to `numerator / denominator`.  In units of
`2 ^ (position - 1074)` a number of 53 bits is left to be rounded, and since codes
ascend with magnitudes, one that rounds up to the next power of two needs no
care. -/
def ratioCode (numerator denominator : Nat) : Nat :=
  let position := scale numerator denominator - 52
  let rounded := nearest (numerator * Nat.pow 2 1074) (denominator * Nat.pow 2 position)
  min (position * stride + rounded) infinityCode

/-- The real next to `numerator / denominator`. -/
def ofRatio (negative : Bool) (numerator denominator : Nat) : Binary64 :=
  ⟨negative, ratioCode numerator denominator,
    Nat.lt_of_le_of_lt (Nat.min_le_right _ _) infinityCode_lt⟩

/-! ## Decimals and integers -/

/-- How many decimal digits a number has; none for zero. -/
def decimalLength (n : Nat) : Nat :=
  if n = 0 then 0 else decimalLength (n / 10) + 1
termination_by n
decreasing_by exact Nat.div_lt_self (Nat.pos_of_ne_zero (by assumption)) (by decide)

/-- The real next to `significand * 10 ^ exponent`.  Beyond the exponents that
doubles reach, the answer is known without computing the power. -/
def ofDecimal (negative : Bool) (significand : Nat) (exponent : Int) : Binary64 :=
  let magnitude := exponent + decimalLength significand
  if significand = 0 ∨ magnitude < -400 then ⟨negative, 0, by decide⟩
  else if 400 < magnitude then infinity negative
  else if exponent < 0 then ofRatio negative significand (Nat.pow 10 (-exponent).toNat)
  else ofRatio negative (significand * Nat.pow 10 exponent.toNat) 1

/-- The real next to an integer, unless the integer is too large for a finite
one. -/
def ofInt? (n : Int) : Option Binary64 :=
  let x := ofRatio (decide (n < 0)) n.natAbs 1
  if x.isInfinite then none else some x

end Binary64

end Part21
