import Part21.Number.Binary64

set_option autoImplicit false

/-!
# The shortest decimal of a real

Among all decimals that round to a given real, those with the fewest digits, and
among them the one next to the real, is the decimal that messages show.
`ShortestForm` lays it out: in positional notation for the exponents from -4 to
15, with a power of ten beyond.

Reals are shown so in the messages of section B.4 of `SPEC_FULL.md`.
-/

namespace Part21

namespace Binary64

/-- A decimal `digits * 10 ^ exponent`. -/
structure Decimal where
  digits : Nat
  exponent : Int
  deriving DecidableEq

/-- An interval of fractions over a common denominator, around a value. -/
structure Neighbourhood where
  low : Nat
  value : Nat
  high : Nat
  denominator : Nat
  closed : Bool

/-- The fractions that round to a finite magnitude other than zero.  Below a
power of two the distance to the next magnitude is half of that above it. -/
def neighbourhood (x : Binary64) : Neighbourhood :=
  let m := x.significand
  let narrow := m = stride ∧ 0 < x.position
  let unit := Nat.pow 2 x.position
  { low := (if narrow then 4 * m - 1 else 4 * m - 2) * unit
    value := 4 * m * unit
    high := (4 * m + 2) * unit
    denominator := Nat.pow 2 1076
    closed := m % 2 == 0 }

namespace Neighbourhood

/-- The fraction `n / scale` lies in the neighbourhood. -/
def holds (i : Neighbourhood) (n scale : Nat) : Bool :=
  let point := n * i.denominator
  if i.closed then i.low * scale ≤ point && point ≤ i.high * scale
  else i.low * scale < point && point < i.high * scale

/-- The point next to the value on the grid of all `n / scale`, if one of the
two about the value lies in the neighbourhood. -/
def onGrid? (i : Neighbourhood) (scale : Nat) : Option Nat :=
  let below := i.value * scale / i.denominator
  let above := below + 1
  match i.holds below scale && below != 0, i.holds above scale with
  | true, true =>
    let twice := 2 * (i.value * scale % i.denominator)
    if twice < i.denominator then some below
    else if i.denominator < twice then some above
    else if below % 2 = 0 then some below
    else some above
  | true, false => some below
  | false, true => some above
  | false, false => none

/-- The same neighbourhood, multiplied by `10 ^ -exponent`. -/
def shifted (i : Neighbourhood) (exponent : Int) : Neighbourhood :=
  if exponent < 0 then
    let p := Nat.pow 10 (-exponent).toNat
    { i with low := i.low * p, value := i.value * p, high := i.high * p }
  else { i with denominator := i.denominator * Nat.pow 10 exponent.toNat }

/-- The first grid with a point in the neighbourhood, from grids of `digits`
digits on; the neighbourhood is that of a value between 1 and 10. -/
def firstGrid (i : Neighbourhood) : Nat → Nat → Nat × Nat
  | 0, digits => (0, digits)
  | tries + 1, digits =>
    match i.onGrid? (Nat.pow 10 (digits - 1)) with
    | some n => (n, digits)
    | none => firstGrid i tries (digits + 1)

/-- The exponent of the highest power of ten not above the value. -/
def magnitude (i : Neighbourhood) : Int :=
  if i.denominator ≤ i.value then (decimalLength (i.value / i.denominator) : Int) - 1
  else
    let reciprocal := (i.denominator - 1) / i.value
    Int.negOfNat (decimalLength reciprocal)

end Neighbourhood

/-- The shortest decimal of a finite magnitude other than zero.  Seventeen
digits tell any two reals apart, so a grid of at most as many is met.  A value
just below a power of ten may meet that power, which is a single digit. -/
def shortest (x : Binary64) : Decimal :=
  let i := x.neighbourhood
  let e := i.magnitude
  let (n, digits) := (i.shifted e).firstGrid 17 1
  if n = Nat.pow 10 digits then ⟨1, e + 1⟩ else ⟨n, e - (digits - 1 : Nat)⟩

/-- How a decimal is laid out. -/
structure Layout where
  /-- the least exponent that is written positionally -/
  least : Int
  /-- the greatest exponent that is written positionally -/
  greatest : Int
  /-- the mark before a written exponent -/
  mark : Text
  /-- the least number of digits of a written exponent -/
  exponentDigits : Nat

/-- Messages write the exponents from -4 to 15 positionally, and others behind
an `e` with a sign and two digits or more. -/
def messageLayout : Layout := ⟨-4, 15, "e", 2⟩

/-- A text with zeros in front up to a length. -/
def padded (length : Nat) (t : Text) : Text :=
  List.replicate (length - t.length) (CodePoint.ofChar '0') ++ t

namespace Layout

/-- Digits with the point behind the first `point` of them. -/
def positional (digits : Text) (point : Int) : Text :=
  if point ≤ 0 then
    "0." ++ List.replicate (-point).toNat (CodePoint.ofChar '0') ++ digits
  else if (digits.length : Int) ≤ point then
    digits ++ List.replicate (point.toNat - digits.length) (CodePoint.ofChar '0') ++ ".0"
  else digits.take point.toNat ++ "." ++ digits.drop point.toNat

/-- Digits with a point behind the first, if there are more, and an exponent. -/
def scientific (l : Layout) (digits : Text) (exponent : Int) : Text :=
  let fraction : Text := if digits.length ≤ 1 then [] else "." ++ digits.drop 1
  let sign : Text := if exponent < 0 then "-" else "+"
  digits.take 1 ++ fraction ++ l.mark ++ sign
    ++ padded l.exponentDigits (Text.ofNat exponent.natAbs)

/-- The layout of a decimal. -/
def write (l : Layout) (d : Decimal) : Text :=
  let digits := Text.ofNat d.digits
  let exponent := d.exponent + digits.length - 1
  if l.least ≤ exponent ∧ exponent ≤ l.greatest then positional digits (exponent + 1)
  else l.scientific digits exponent

end Layout

/-- The text of a real in messages. -/
def toText (x : Binary64) : Text :=
  if x.isNaN then "nan"
  else
    let sign : Text := if x.negative then "-" else ""
    if x.isInfinite then sign ++ "inf"
    else if x.code = 0 then sign ++ "0.0"
    else sign ++ messageLayout.write x.shortest

end Binary64

end Part21
