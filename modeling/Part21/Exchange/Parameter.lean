import Part21.Exchange.StringBody
import Part21.Number.Place
import Part21.Number.Shortest

set_option autoImplicit false

/-!
# Parameters

The values that instances carry, as they stand in the exchange structure and
before any schema gives them a type.  A parameter has no identity beyond its
value.  The functions here that go into lists come in pairs, one for a
parameter and one for a row of them.

Section 3 of `SPEC_FULL.md` lists them, as *Parameter*; `references` goes through them as
`iter_references` does (B.5).
-/

namespace Part21

/-- The value of one place of an instance. -/
inductive Parameter where
  | integer (value : Int)
  | real (value : Binary64)
  | string (value : Text)
  | enumeration (item : Text)
  /-- hexadecimal digits, of whose bits the first few are unused -/
  | binary (unusedBits : Int) (digits : Text)
  /-- the name of an instance -/
  | reference (id : Int)
  /-- `$`: no value is given -/
  | unset
  /-- `*`: the schema derives the value -/
  | inapplicable
  | list (items : List Parameter)
  /-- a value under the name of its type -/
  | typed (keyword : Text) (value : Parameter)

namespace Parameter

/-! ## References -/

mutual

/-- The instances that a parameter names, in the order of the text. -/
def references : Parameter → List Int
  | reference id => [id]
  | list items => allReferences items
  | typed _ value => references value
  | _ => []

/-- The instances that a row of parameters names, in the order of the text. -/
def allReferences : List Parameter → List Int
  | [] => []
  | item :: rest => references item ++ allReferences rest

end

/-! ## Sameness -/

mutual

/-- Two parameters are the same if kind and value are; reals are compared as
numbers, so the two zeros are the same and what is no number differs from
itself. -/
def same : Parameter → Parameter → Bool
  | integer a, integer b => decide (a = b)
  | real a, real b => a.same b
  | string a, string b => decide (a = b)
  | enumeration a, enumeration b => decide (a = b)
  | binary m a, binary n b => decide (m = n) && decide (a = b)
  | reference a, reference b => decide (a = b)
  | unset, unset => true
  | inapplicable, inapplicable => true
  | list a, list b => allSame a b
  | typed j a, typed k b => decide (j = k) && same a b
  | _, _ => false

/-- Two rows of the same parameters. -/
def allSame : List Parameter → List Parameter → Bool
  | [], [] => true
  | a :: s, b :: t => same a b && allSame s t
  | _, _ => false

end

/-! ## Kinds -/

/-- What messages call the kind of a parameter. -/
def kindName : Parameter → Text
  | integer _ => "integer"
  | real _ => "real"
  | string _ => "string"
  | enumeration _ => "enumeration"
  | binary _ _ => "binary"
  | reference _ => "entity reference"
  | unset => "unset ($)"
  | inapplicable => "omitted (*)"
  | list _ => "list"
  | typed keyword _ => "typed parameter " ++ keyword

/-! ## The text of a parameter in messages -/

mutual

/-- A parameter in full, as messages show it. -/
def toText : Parameter → Text
  | integer value => "Integer(value=" ++ Text.ofInt value ++ ")"
  | real value => "Real(value=" ++ value.toText ++ ")"
  | string value => "String(value=" ++ value.quoted ++ ")"
  | enumeration item => "Enumeration(name=" ++ item.quoted ++ ")"
  | binary unusedBits digits =>
    "Binary(unused_bits=" ++ Text.ofInt unusedBits ++ ", hex_digits=" ++ digits.quoted ++ ")"
  | reference id => "EntityRef(id=" ++ Text.ofInt id ++ ")"
  | unset => "UNSET"
  | inapplicable => "INAPPLICABLE"
  | list items =>
    let closing : Text := if items.length = 1 then ",))" else "))"
    "ParamList(items=(" ++ rowText items ++ closing
  | typed keyword value =>
    "TypedParameter(keyword=" ++ keyword.quoted ++ ", parameter=" ++ toText value ++ ")"

/-- A row of parameters with commas between them. -/
def rowText : List Parameter → Text
  | [] => []
  | [item] => toText item
  | item :: next :: rest => toText item ++ ", " ++ rowText (next :: rest)

end

end Parameter

/-! ## Binary values -/

namespace Binary

/-- The four bits of a hexadecimal digit as a text of zeros and ones. -/
def nibble (value : Nat) : Text :=
  [value / 8 % 2, value / 4 % 2, value / 2 % 2, value % 2].map fun bit =>
    if bit = 0 then '0' else '1'

/-- The bits of hexadecimal digits, four for each. -/
def digitBits : Text → Except StringFault Text
  | [] => .ok []
  | c :: rest =>
    match Radix.hexadecimal.digit? c with
    | none => .error (.notHexadecimal [c])
    | some value =>
      match digitBits rest with
      | .error fault => .error fault
      | .ok bits => .ok (nibble value ++ bits)

/-- The bits of a binary: those of its digits without the unused ones.  A negative
number of unused bits leaves that many bits at the end. -/
def bits (unusedBits : Int) (digits : Text) : Except StringFault Text :=
  match digitBits digits with
  | .error fault => .error fault
  | .ok bits => .ok (bits.drop (Place.cut bits.length unusedBits))

end Binary

end Part21
