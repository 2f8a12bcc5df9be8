set_option autoImplicit false

/-!
# Code points and texts

An exchange structure is a sequence of Unicode code points.  A decoded string
may hold any of them, the surrogates included, so a text here is a list of code
points and not a list of Unicode scalar values.

The classes here are those of the basic character set, which names, keywords and
enumeration items are built from.

Such a sequence is the character stream of section 4.1 of `SPEC_FULL.md`.
-/

namespace Part21

/-- A Unicode code point, surrogates included. -/
structure CodePoint where
  toNat : Nat
  isLt : toNat < 0x110000
  deriving DecidableEq

namespace CodePoint

theorem toNat_injective {a b : CodePoint} (h : a.toNat = b.toNat) : a = b := by
  cases a; cases b; cases h; rfl

/-- The code point of a character. -/
def ofChar (c : Char) : CodePoint :=
  ⟨c.toNat, by
    have h := c.valid
    change c.toNat.isValidChar at h
    rcases h with h | h <;> omega⟩

instance : Coe Char CodePoint := ⟨ofChar⟩

instance : Inhabited CodePoint := ⟨ofChar ' '⟩

/-- The code point with a given number, if there is one. -/
def ofNat? (n : Nat) : Option CodePoint :=
  if h : n < 0x110000 then some ⟨n, h⟩ else none

/-- The code points reserved for surrogate pairs, which are no characters. -/
def isSurrogate (c : CodePoint) : Bool := 0xD800 ≤ c.toNat && c.toNat < 0xE000

/-- The character of a code point; surrogates have none. -/
def toChar? (c : CodePoint) : Option Char :=
  if h : c.toNat.isValidChar then some (Char.ofNatAux c.toNat h) else none

/-! ## Classes of the basic character set -/

/-- `c` lies between two characters, ends included. -/
def between (c : CodePoint) (low high : Char) : Bool :=
  low.toNat ≤ c.toNat && c.toNat ≤ high.toNat

/-- `A` to `Z`. -/
def isCapital (c : CodePoint) : Bool := c.between 'A' 'Z'

/-- `a` to `z`. -/
def isSmall (c : CodePoint) : Bool := c.between 'a' 'z'

/-- A letter of the basic character set. -/
def isLetter (c : CodePoint) : Bool := c.isCapital || c.isSmall

/-- `0` to `9`. -/
def isBasicDigit (c : CodePoint) : Bool := c.between '0' '9'

/-- A letter or the low line: what a name may start with. -/
def startsName (c : CodePoint) : Bool := c.isLetter || decide (c = '_')

/-- A letter, a digit or the low line: what a name may go on with. -/
def continuesName (c : CodePoint) : Bool := c.startsName || c.isBasicDigit

/-- A hexadecimal digit in either letter case. -/
def isHexDigit (c : CodePoint) : Bool :=
  c.isBasicDigit || c.between 'A' 'F' || c.between 'a' 'f'

/-- The value of a hexadecimal digit in either letter case. -/
def hexValue? (c : CodePoint) : Option Nat :=
  if c.isBasicDigit then some (c.toNat - '0'.toNat)
  else if c.between 'A' 'F' then some (c.toNat - 'A'.toNat + 10)
  else if c.between 'a' 'f' then some (c.toNat - 'a'.toNat + 10)
  else none

/-! ## Letter case -/

/-- A member of the basic character set. -/
def isBasic (c : CodePoint) : Bool := c.toNat < 0x80

/-- The capital of a small letter of the basic character set; all else stays. -/
def capital (c : CodePoint) : CodePoint :=
  if c.isSmall then ⟨c.toNat - 32, Nat.lt_of_le_of_lt (Nat.sub_le _ _) c.isLt⟩ else c

/-- The small form of a capital of the basic character set; all else stays. -/
def small (c : CodePoint) : CodePoint :=
  if h : c.isCapital then
    ⟨c.toNat + 32, by
      simp only [isCapital, between, Bool.and_eq_true, decide_eq_true_eq] at h
      have : ('Z' : Char).toNat = 90 := rfl
      omega⟩
  else c

end CodePoint

/-- A sequence of code points. -/
abbrev Text := List CodePoint

namespace Text

/-- The code points of a string. -/
def ofString (s : String) : Text := s.toList.map CodePoint.ofChar

instance : Coe String Text := ⟨ofString⟩

/-- The decimal form of an integer. -/
def ofInt (n : Int) : Text := ofString (toString n)

/-- The decimal form of a natural number. -/
def ofNat (n : Nat) : Text := ofString (toString n)

/-- The pieces one after another, with a separator between neighbours. -/
def join (separator : Text) : List Text → Text
  | [] => []
  | [piece] => piece
  | piece :: next :: rest => piece ++ separator ++ join separator (next :: rest)

/-- The rest of a text behind a given beginning. -/
def dropStart? (start : Text) (t : Text) : Option Text := start.isPrefixOf? t

/-- The parts of a text before and behind the first place where `mark` stands. -/
def cut? (mark : Text) : Text → Option (Text × Text)
  | [] => if mark = [] then some ([], []) else none
  | c :: rest =>
    match mark.isPrefixOf? (c :: rest) with
    | some behind => some ([], behind)
    | none => (cut? mark rest).map fun (before, behind) => (c :: before, behind)

/-- Texts in the order of their code points. -/
def le : Text → Text → Bool
  | [], _ => true
  | _ :: _, [] => false
  | a :: s, b :: t =>
    if a.toNat < b.toNat then true else if b.toNat < a.toNat then false else le s t

/-- The texts in ascending order. -/
def sorted (texts : List Text) : List Text := texts.mergeSort le

end Text

end Part21
