import Part21.Exchange.StringBody
import Part21.Number.Shortest
import Part21.Text.Capital

set_option autoImplicit false

/-!
# Lexemes

The words of an exchange structure, and how one is cut from the start of a
text.  Several rules may apply at a place; they are tried in a fixed order and
the first that applies decides, however much it takes.  So `END-ISO-10303-21`
and `ISO-10303-21` come before keywords, and reals before integers.

A string literal ends at the first apostrophe that is not doubled.  If there is
none, it ends at the first apostrophe of the last doubled pair, for want of a
better end.

The rules are those of sections 4.1 and B.5 of `SPEC_FULL.md`, in the order in which
`StepLexer` has them.
-/

namespace Part21

/-- The classes of lexemes, as grammar rules and messages name them. -/
inductive LexemeKind where
  | opening
  | closing
  | keyword
  | entityName
  | integer
  | real
  | string
  | binary
  | enumeration
  | dollar
  | star
  | leftParen
  | rightParen
  | comma
  | semicolon
  | equals
  | header
  | data
  | endSection
  deriving DecidableEq

namespace LexemeKind

/-- The name of a class in messages. -/
def name : LexemeKind → Text
  | opening => "ISO"
  | closing => "END_ISO"
  | keyword => "KEYWORD"
  | entityName => "ENTITY_NAME"
  | integer => "INTEGER"
  | real => "REAL"
  | string => "STRING"
  | binary => "BINARY"
  | enumeration => "ENUMERATION"
  | dollar => "DOLLAR"
  | star => "STAR"
  | leftParen => "LPAREN"
  | rightParen => "RPAREN"
  | comma => "COMMA"
  | semicolon => "SEMI"
  | equals => "EQUALS"
  | header => "HEADER"
  | data => "DATA"
  | endSection => "ENDSEC"

end LexemeKind

/-- A word of an exchange structure with its value. -/
inductive Lexeme where
  /-- `ISO-10303-21` -/
  | opening
  /-- `END-ISO-10303-21` -/
  | closing
  | header
  | data
  | endSection
  | keyword (name : Text)
  /-- `#` and a number: the name of an instance -/
  | entityName (id : Nat)
  | integer (value : Int)
  | real (value : Binary64)
  | string (value : Text)
  /-- the number of unused bits, and hexadecimal digits in capitals -/
  | binary (unusedBits : Nat) (digits : Text)
  | enumeration (item : Text)
  | dollar
  | star
  | leftParen
  | rightParen
  | comma
  | semicolon
  | equals
  deriving DecidableEq

namespace Lexeme

/-- The class of a lexeme. -/
def kind : Lexeme → LexemeKind
  | opening => .opening
  | closing => .closing
  | header => .header
  | data => .data
  | endSection => .endSection
  | keyword _ => .keyword
  | entityName _ => .entityName
  | integer _ => .integer
  | real _ => .real
  | string _ => .string
  | binary _ _ => .binary
  | enumeration _ => .enumeration
  | dollar => .dollar
  | star => .star
  | leftParen => .leftParen
  | rightParen => .rightParen
  | comma => .comma
  | semicolon => .semicolon
  | equals => .equals

/-- The spelling of a lexeme that has only one. -/
def fixedSpelling : Lexeme → Text
  | opening => "ISO-10303-21"
  | closing => "END-ISO-10303-21"
  | header => "HEADER"
  | data => "DATA"
  | endSection => "ENDSEC"
  | dollar => "$"
  | star => "*"
  | leftParen => "("
  | rightParen => ")"
  | comma => ","
  | semicolon => ";"
  | equals => "="
  | _ => []

/-- The value of a lexeme as messages show it. -/
def valueText : Lexeme → Text
  | keyword name => name.quoted
  | entityName id => Text.ofNat id
  | integer value => Text.ofInt value
  | real value => value.toText
  | string value => value.quoted
  | binary unusedBits digits => "(" ++ Text.ofNat unusedBits ++ ", " ++ digits.quoted ++ ")"
  | enumeration item => item.quoted
  | other => other.fixedSpelling.quoted

end Lexeme

/-- Why no lexeme can be cut from a text. -/
inductive LexFault where
  | unclosedString
  | malformedBinary
  | unclosedComment
  | illegal (c : CodePoint)
  /-- a string literal whose body is no encoding of a string -/
  | badString (fault : StringFault)
  /-- an integer or a name with more digits than are read -/
  | tooManyDigits (count : Nat)
  deriving DecidableEq

namespace LexFault

/-- The text of the fault. -/
def message : LexFault → Text
  | unclosedString => "Unterminated string literal"
  | malformedBinary => "Malformed binary literal"
  | unclosedComment => "Unterminated comment"
  | illegal c => "Illegal character " ++ Text.quoted [c]
  | badString fault => fault.message
  | tooManyDigits count => Numeral.tooLongMessage count

/-- Faults that are reported with their place in the text.  A number too large
to be handled at all is reported without. -/
def isLocated : LexFault → Bool
  | badString .outOfWord => false
  | tooManyDigits _ => false
  | _ => true

end LexFault

/-- What is cut from the start of a text: a lexeme, or nothing for blanks and
comments, and its length. -/
structure Cut where
  lexeme : Option Lexeme
  length : Nat

namespace Cut

/-! ## Numbers -/

/-- An exponent: its sign and its digits. -/
structure Exponent where
  negative : Bool
  digits : Text
  length : Nat

/-- The exponent at the start of a text: a letter e, a sign if any, and digits. -/
def exponent? : Text → Option Exponent
  | [] => none
  | e :: rest =>
    if e = 'e' ∨ e = 'E' then
      match rest with
      | [] => none
      | sign :: behind =>
        let signed := sign = '+' ∨ sign = '-'
        let digits := (if signed then behind else rest).takeWhile CodePoint.isDigit
        if digits = [] then none
        else some ⟨sign = '-', digits, digits.length + (if signed then 2 else 1)⟩
    else none

/-- The fraction at the start of a text, without its point: the digits behind a
point, none if there is no point. -/
def fraction? : Text → Option Text
  | [] => none
  | point :: rest => if point = '.' then some (rest.takeWhile CodePoint.isDigit) else none

/-- The value of a real: its sign, the digits before and behind the point, and
the exponent. -/
def realValue (negative : Bool) (whole fraction : Text) (exponent : Option Exponent) : Binary64 :=
  let power : Int :=
    match exponent with
    | none => 0
    | some e => if e.negative then -(e.digits.digitsValue : Int) else e.digits.digitsValue
  Binary64.ofDecimal negative (whole ++ fraction).digitsValue (power - fraction.length)

/-- The integer that a sign and digits spell. -/
def integerValue (negative : Bool) (digits : Text) : Int :=
  if negative then -(digits.digitsValue : Int) else digits.digitsValue

/-- A row of digits within the limit for integers. -/
def checkDigits (digits : Text) : Except LexFault Unit :=
  if Numeral.digitLimit < digits.length then .error (.tooManyDigits digits.length) else .ok ()

/-- The number whose digits start `t`, behind a sign of `signLength` code points. -/
def number (negative : Bool) (signLength : Nat) (t : Text) : Except LexFault Cut :=
  let whole := t.takeWhile CodePoint.isDigit
  let behind := t.drop whole.length
  match fraction? behind with
  | some fraction =>
    let exponent := exponent? (behind.drop (fraction.length + 1))
    let exponentLength := (exponent.map Exponent.length).getD 0
    .ok ⟨some (.real (realValue negative whole fraction exponent)),
      signLength + whole.length + 1 + fraction.length + exponentLength⟩
  | none =>
    match exponent? behind with
    | some exponent =>
      .ok ⟨some (.real (realValue negative whole [] (some exponent))),
        signLength + whole.length + exponent.length⟩
    | none =>
      match checkDigits whole with
      | .error fault => .error fault
      | .ok () =>
        .ok ⟨some (.integer (integerValue negative whole)), signLength + whole.length⟩

/-- The instance name whose digits start `t`, which are not none. -/
def entityName (t : Text) : Except LexFault Cut :=
  let digits : Text := t.takeWhile CodePoint.isDigit
  match checkDigits digits with
  | .error fault => .error fault
  | .ok () => .ok ⟨some (.entityName digits.digitsValue), digits.length + 1⟩

/-! ## Strings, binaries, enumerations and keywords -/

/-- The length of the body of a string literal that starts `t`; the closing
apostrophe stands behind it. -/
def bodyLength? : Text → Option Nat
  | [] => none
  | [c] => if c = '\'' then some 0 else none
  | c :: d :: rest =>
    if c = '\'' then
      if d = '\'' then some (((bodyLength? rest).map (· + 2)).getD 0) else some 0
    else (bodyLength? (d :: rest)).map (· + 1)

/-- The string literal whose body starts `t`. -/
def string (t : Text) : Except LexFault Cut :=
  match bodyLength? t with
  | none => .error .unclosedString
  | some length =>
    match StringBody.decode (t.take length) with
    | .error fault => .error (.badString fault)
    | .ok value => .ok ⟨some (.string value), length + 2⟩

/-- The binary literal behind whose quotation mark `t` stands: the number of
unused bits, hexadecimal digits and another mark. -/
def binary : Text → Except LexFault Cut
  | [] => .error .malformedBinary
  | unused :: rest =>
    let digits : Text := rest.takeWhile CodePoint.isHexDigit
    if unused.between '0' '3' && decide ((rest.drop digits.length).head? = some '"') then
      .ok ⟨some (.binary (unused.toNat - '0'.toNat) digits.upper), digits.length + 3⟩
    else .error .malformedBinary

/-- The name that starts a text; empty if none does. -/
def nameAt (t : Text) : Text :=
  match t with
  | [] => []
  | c :: rest => if c.startsName then c :: rest.takeWhile CodePoint.continuesName else []

/-- The enumeration item behind whose point `t` stands. -/
def enumeration? (t : Text) : Option Cut :=
  let name := nameAt t
  if name ≠ [] ∧ (t.drop name.length).head? = some '.' then
    some ⟨some (.enumeration name.upper), name.length + 2⟩
  else none

/-- The lexeme of a word: one of the three section words, in capitals, or a
keyword. -/
def word (spelling : Text) : Lexeme :=
  if spelling = "HEADER" then .header
  else if spelling = "DATA" then .data
  else if spelling = "ENDSEC" then .endSection
  else .keyword spelling

/-- The word at the start of a text; an exclamation mark may come first. -/
def word? : Text → Option Cut
  | [] => none
  | c :: rest =>
    let name := nameAt (if c = '!' then rest else c :: rest)
    if name = [] then none
    else
      let spelling := if c = '!' then c :: name else name
      some ⟨some (word spelling), spelling.length⟩

/-! ## Any lexeme -/

/-- The code points that separate lexemes. -/
def isSeparator (c : CodePoint) : Bool :=
  decide (c = ' ') || decide (c = '\t') || decide (c = '\r') || decide (c = '\x0c')
    || decide (c = '\n')

/-- The lexeme that a single code point is. -/
def punctuation? (c : CodePoint) : Option Lexeme :=
  if c = '$' then some .dollar
  else if c = '*' then some .star
  else if c = '(' then some .leftParen
  else if c = ')' then some .rightParen
  else if c = ',' then some .comma
  else if c = ';' then some .semicolon
  else if c = '=' then some .equals
  else none

/-- A comment that starts a text, by its length; none if it is not closed. -/
def commentLength? (t : Text) : Option Nat :=
  match Text.dropStart? "/*" t with
  | none => none
  | some rest => (Text.cut? "*/" rest).map fun parts => parts.1.length + 4

/-- A digit starts the text. -/
def startsWithDigit (t : Text) : Bool :=
  match t with
  | [] => false
  | c :: _ => c.isDigit

/-- What stands at the start of the text `c :: rest`. -/
def first (c : CodePoint) (rest : Text) : Except LexFault Cut :=
  let t := c :: rest
  if isSeparator c then .ok ⟨none, 1⟩
  else if (Text.ofString "/*").isPrefixOf t then
    match commentLength? t with
    | some length => .ok ⟨none, length⟩
    | none => .error .unclosedComment
  else if Lexeme.closing.fixedSpelling.isPrefixOf t then
    .ok ⟨some .closing, Lexeme.closing.fixedSpelling.length⟩
  else if Lexeme.opening.fixedSpelling.isPrefixOf t then
    .ok ⟨some .opening, Lexeme.opening.fixedSpelling.length⟩
  else if c.isDigit then number false 0 t
  else if (c = '+' ∨ c = '-') ∧ startsWithDigit rest = true then number (c = '-') 1 rest
  else if c = '#' ∧ startsWithDigit rest = true then entityName rest
  else if c = '\'' then string rest
  else if c = '"' then binary rest
  else
    match (if c = '.' then enumeration? rest else none) with
    | some cut => .ok cut
    | none =>
      match word? t with
      | some cut => .ok cut
      | none =>
        match punctuation? c with
        | some lexeme => .ok ⟨some lexeme, 1⟩
        | none => .error (.illegal c)

end Cut

end Part21
