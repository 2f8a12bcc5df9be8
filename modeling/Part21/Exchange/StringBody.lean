import Part21.Number.Numeral
import Part21.Text.Quoted

set_option autoImplicit false

/-!
# The body of a string literal

Between its apostrophes a string literal holds the value of the string in an
encoding: an apostrophe and a backslash are doubled, other code points can be
written by control directives, and line breaks do not belong to the value.

* `\S\c` is `c` with 128 added,
* `\X\hh` is a code point of two hexadecimal digits,
* `\X2\…\X0\` and `\X4\…\X0\` are code points of four or eight digits each,
* `\PA\` to `\PI\` choose an alphabet and stand for nothing.

A backslash that starts no directive is an ordinary character.  `decode` reads
a body from left to right; `StringFault` says what can be wrong with a
directive.

The directives are those of section B.5 of `SPEC_FULL.md`, and `decode` is `decode_string`.
-/

namespace Part21

/-- What can be wrong with a control directive. -/
inductive StringFault where
  /-- a directive of several code points is not closed -/
  | unclosed
  /-- the digits of a directive of several code points do not come out even -/
  | unevenDigits (digits : Text)
  /-- fewer than two digits are left for a single code point -/
  | truncatedCode
  /-- no character is left to be shifted -/
  | truncatedShift
  /-- something else stands for the digits of a code point -/
  | notHexadecimal (digits : Text)
  /-- the digits spell no code point -/
  | outOfRange
  /-- the digits spell a number of more than 31 bits -/
  | outOfWord
  deriving DecidableEq

namespace StringFault

/-- The text of the fault. -/
def message : StringFault → Text
  | unclosed => "Unterminated \\X2\\ or \\X4\\ directive"
  | unevenDigits digits => "Bad hex length in extended directive: " ++ digits.quoted
  | truncatedCode => "Truncated \\X\\ directive"
  | truncatedShift => "Truncated \\S\\ directive"
  | notHexadecimal digits => "invalid literal for int() with base 16: " ++ digits.quoted
  | outOfRange => "chr() arg not in range(0x110000)"
  | outOfWord => "Python int too large to convert to C int"

end StringFault

namespace StringBody

/-- The code point that a hexadecimal numeral spells. -/
def codePoint (digits : Text) : Except StringFault CodePoint :=
  match Numeral.integer? .hexadecimal digits with
  | none => .error (.notHexadecimal digits)
  | some n =>
    if 0x80000000 ≤ n then .error .outOfWord
    else if n < 0 then .error .outOfRange
    else
      match CodePoint.ofNat? n.toNat with
      | some c => .ok c
      | none => .error .outOfRange

/-- The code points that digits in groups of `width` spell. -/
def codePoints (width : Nat) (digits : Text) : Except StringFault Text :=
  if digits = [] ∨ width = 0 then .ok []
  else
    match codePoint (digits.take width) with
    | .error fault => .error fault
    | .ok c =>
      match codePoints width (digits.drop width) with
      | .error fault => .error fault
      | .ok rest => .ok (c :: rest)
termination_by digits.length
decreasing_by
  have : digits ≠ [] := by simp_all
  have := List.length_pos_iff.mpr this
  simp only [List.length_drop]
  omega

/-- A directive with what follows it: the code points it stands for and how many
code points it takes behind its backslash. -/
structure Reading where
  value : Text
  length : Nat

/-- The directive of several code points whose digits start `rest`. -/
def extended (width : Nat) (rest : Text) : Except StringFault Reading :=
  match Text.cut? "\\X0\\" rest with
  | none => .error .unclosed
  | some (digits, _) =>
    if digits.length % width ≠ 0 then .error (.unevenDigits digits)
    else
      match codePoints width digits with
      | .error fault => .error fault
      | .ok value => .ok ⟨value, 3 + digits.length + 4⟩

/-- The directive of one code point whose digits start `rest`. -/
def coded (rest : Text) : Except StringFault Reading :=
  if (rest.take 2).length ≠ 2 then .error .truncatedCode
  else
    match codePoint (rest.take 2) with
    | .error fault => .error fault
    | .ok c => .ok ⟨[c], 4⟩

/-- The directive that shifts the first character of `rest`; an apostrophe takes
its double with it.  Code points cannot be shifted beyond the last one. -/
def shifted : Text → Except StringFault Reading
  | [] => .error .truncatedShift
  | c :: _ =>
    match CodePoint.ofNat? (c.toNat + 128) with
    | some d => .ok ⟨[d], if c = '\'' then 4 else 3⟩
    | none => .error .outOfRange

/-- The choice of an alphabet, a letter from A to I between `\P` and `\`. -/
def choosesAlphabet : Text → Bool
  | p :: letter :: close :: _ =>
    decide (p = 'P') && letter.between 'A' 'I' && decide (close = '\\')
  | _ => false

/-- What stands behind a backslash. -/
def directive (rest : Text) : Except StringFault Reading :=
  match rest with
  | [] => .ok ⟨['\\'], 0⟩
  | c :: _ =>
    if c = '\\' then .ok ⟨['\\'], 1⟩
    else if (Text.ofString "X2\\").isPrefixOf rest then extended 4 (rest.drop 3)
    else if (Text.ofString "X4\\").isPrefixOf rest then extended 8 (rest.drop 3)
    else if (Text.ofString "X\\").isPrefixOf rest then coded (rest.drop 2)
    else if (Text.ofString "S\\").isPrefixOf rest then shifted (rest.drop 2)
    else if choosesAlphabet rest then .ok ⟨[], 3⟩
    else .ok ⟨['\\'], 0⟩

/-- The value of a body without line breaks. -/
def decodeLine (body : Text) : Except StringFault Text :=
  match body with
  | [] => .ok []
  | c :: rest =>
    if c = '\'' then
      match decodeLine (rest.drop 1) with
      | .error fault => .error fault
      | .ok value => .ok (c :: value)
    else if c = '\\' then
      match directive rest with
      | .error fault => .error fault
      | .ok reading =>
        match decodeLine (rest.drop reading.length) with
        | .error fault => .error fault
        | .ok value => .ok (reading.value ++ value)
    else
      match decodeLine rest with
      | .error fault => .error fault
      | .ok value => .ok (c :: value)
termination_by body.length
decreasing_by all_goals simp only [List.length_drop, List.length_cons]; omega

/-- A code point that breaks the line of a literal. -/
def breaksLine (c : CodePoint) : Bool := decide (c = '\r') || decide (c = '\n')

/-- The value of the body of a string literal. -/
def decode (body : Text) : Except StringFault Text :=
  decodeLine (body.filter fun c => !breaksLine c)

end StringBody

end Part21
