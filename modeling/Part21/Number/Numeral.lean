import Part21.Text.CodePoint

set_option autoImplicit false

/-!
# Numerals

A numeral is a sign, if any, and a row of digits in a base, in which a single
low line may stand between two digits.  Decimal digits of every script count as
digits; beyond nine the Latin letters follow.  A hexadecimal numeral may have
the mark `0x` before its digits, and a low line behind the mark.  The zero of the
mark is a digit of any script as well.  Blanks around a numeral do not matter.

No decimal numeral of more than `digitLimit` digits is read, leading zeros
included.

The Unicode property "decimal digit" comes in runs of ten consecutive code
points with the values 0 to 9, so a table of the zeros is a table of the
property.  Numbers may be written in any of these scripts, and even in a
mixture of them.  Blanks are the Unicode white space and the four information
separators of the basic set.

Integer literals are in section 4.1 of `SPEC_FULL.md`; in B.5 the digits of control
directives are numerals, and in B.3 the values of variables.
-/

namespace Part21

/-! ## Decimal digits -/

namespace CodePoint

/-- The digits of value zero, in ascending order. -/
def zeroDigits : List Nat :=
  [ 0x30, 0x660, 0x6f0, 0x7c0, 0x966, 0x9e6, 0xa66, 0xae6, 0xb66, 0xbe6,
    0xc66, 0xce6, 0xd66, 0xde6, 0xe50, 0xed0, 0xf20, 0x1040, 0x1090, 0x17e0,
    0x1810, 0x1946, 0x19d0, 0x1a80, 0x1a90, 0x1b50, 0x1bb0, 0x1c40, 0x1c50, 0xa620,
    0xa8d0, 0xa900, 0xa9d0, 0xa9f0, 0xaa50, 0xabf0, 0xff10, 0x104a0, 0x10d30, 0x11066,
    0x110f0, 0x11136, 0x111d0, 0x112f0, 0x11450, 0x114d0, 0x11650, 0x116c0, 0x11730, 0x118e0,
    0x11950, 0x11c50, 0x11d50, 0x11da0, 0x16a60, 0x16ac0, 0x16b50, 0x1d7ce, 0x1d7d8, 0x1d7e2,
    0x1d7ec, 0x1d7f6, 0x1e140, 0x1e2f0, 0x1e950, 0x1fbf0 ]

/-- The value of a decimal digit of any script. -/
def digitValue? (c : CodePoint) : Option Nat :=
  (zeroDigits.find? fun start => start ≤ c.toNat && c.toNat < start + 10).map (c.toNat - ·)

/-- A decimal digit of any script. -/
def isDigit (c : CodePoint) : Bool := c.digitValue?.isSome

example : zeroDigits.length = 66 := rfl

example : (ofChar '7').digitValue? = some 7 := by decide

end CodePoint

namespace Text

/-- The number that a row of decimal digits spells, the most significant first.
A code point that is no digit counts as zero; callers pass digits only. -/
def digitsValue (digits : Text) : Nat :=
  digits.foldl (fun n c => 10 * n + c.digitValue?.getD 0) 0

end Text

/-! ## Blanks -/

namespace CodePoint

/-- Runs of blanks, first and last code point of each. -/
def blankRuns : List (Nat × Nat) :=
  [ (0x9, 0xd), (0x1c, 0x20), (0x85, 0x85), (0xa0, 0xa0), (0x1680, 0x1680), (0x2000, 0x200a),
    (0x2028, 0x2029), (0x202f, 0x202f), (0x205f, 0x205f), (0x3000, 0x3000) ]

/-- A blank of any kind. -/
def isBlank (c : CodePoint) : Bool :=
  blankRuns.any fun run => run.1 ≤ c.toNat && c.toNat ≤ run.2

/-- One of the four information separators, which are blanks in running text
but not around a numeral. -/
def isInformationSeparator (c : CodePoint) : Bool := 0x1c ≤ c.toNat && c.toNat ≤ 0x1f

/-- A blank that may stand around a numeral. -/
def isNumeralBlank (c : CodePoint) : Bool := c.isBlank && !c.isInformationSeparator

end CodePoint

namespace Text

/-- The text without the code points of a class at its two ends. -/
def trim (drop : CodePoint → Bool) (t : Text) : Text :=
  ((t.dropWhile drop).reverse.dropWhile drop).reverse

end Text

/-! ## Numerals in a base -/

/-- The bases that numerals are read in. -/
inductive Radix where
  | decimal
  | hexadecimal
  deriving DecidableEq

namespace Radix

/-- The number of digits. -/
def base : Radix → Nat
  | decimal => 10
  | hexadecimal => 16

/-- The value of a digit of the base. -/
def digit? (r : Radix) (c : CodePoint) : Option Nat :=
  match c.digitValue? with
  | some value => some value
  | none => if r = hexadecimal then c.hexValue? else none

end Radix

namespace Numeral

/-- The most digits that a decimal numeral may have. -/
def digitLimit : Nat := 4300

/-- The text of the fault that a numeral has too many digits. -/
def tooLongMessage (count : Nat) : Text :=
  "Exceeds the limit (" ++ Text.ofNat digitLimit
    ++ " digits) for integer string conversion: value has " ++ Text.ofNat count
    ++ " digits; use sys.set_int_max_str_digits() to increase the limit"

/-- The value of a row of digits with single low lines between them.  `value` is
that of the digits before, and `afterDigit` says whether a digit came last: only
then may a low line follow or the row end. -/
def row? (r : Radix) (value : Nat) (afterDigit : Bool) : Text → Option Nat
  | [] => if afterDigit then some value else none
  | c :: rest =>
    if c = '_' then
      if afterDigit then row? r value false rest else none
    else
      match r.digit? c with
      | some digit => row? r (value * r.base + digit) true rest
      | none => none

/-- The text behind the mark of a hexadecimal numeral, if it has one. -/
def unmarked (r : Radix) (t : Text) : Text :=
  match r, t with
  | .hexadecimal, zeroSign :: mark :: rest =>
    if zeroSign.digitValue? = some 0 ∧ (mark = 'x' ∨ mark = 'X') then
      match rest with
      | c :: behind => if c = '_' then behind else rest
      | [] => rest
    else t
  | _, _ => t

/-- The value of a numeral without sign. -/
def natural? (r : Radix) (t : Text) : Option Nat := row? r 0 false (unmarked r t)

/-- The value of a numeral with or without sign. -/
def signed? (r : Radix) : Text → Option Int
  | [] => none
  | c :: rest =>
    if c = '-' then (natural? r rest).map fun n => -(n : Int)
    else if c = '+' then (natural? r rest).map fun n => (n : Int)
    else (natural? r (c :: rest)).map fun n => (n : Int)

/-- The value of a numeral that may stand between blanks. -/
def integer? (r : Radix) (t : Text) : Option Int := signed? r (t.trim CodePoint.isNumeralBlank)

/-- The value of a decimal numeral within the digit limit. -/
def decimal? (t : Text) : Option Int :=
  if digitLimit < (t.filter CodePoint.isDigit).length then none else integer? .decimal t

end Numeral

end Part21
