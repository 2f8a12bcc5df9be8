import Part21.Number.Numeral
import Part21.Text.Position
import Part21.Schema.Fault
import Part21.Text.Capital

set_option autoImplicit false

/-!
# Tokens of a schema text

A schema text is made of reserved words in any letter case, identifiers, natural
numbers, expressions behind `:=` up to the next semicolon, which are kept as
text, and single signs.  Blanks, line ends and comments separate them; a comment
stands between `(*` and `*)` or between `--` and the end of its line.

As in an exchange structure the rules are tried in a fixed order: an unclosed
`(*` is a parenthesis, and a `:=` without semicolon a colon.

The rules are those of `ExpressLexer` (`SPEC_FULL.md`, section B.6).
-/

namespace Part21

namespace Express

/-- The reserved words. -/
inductive Word where
  | schemaWord
  | endSchemaWord
  | typeWord
  | endTypeWord
  | entityWord
  | endEntityWord
  | enumerationWord
  | selectWord
  | ofWord
  | listWord
  | setWord
  | bagWord
  | arrayWord
  | uniqueWord
  | optionalWord
  | integerWord
  | realWord
  | numberWord
  | stringWord
  | booleanWord
  | logicalWord
  | binaryWord
  | fixedWord
  | abstractWord
  | supertypeWord
  | subtypeWord
  | oneOfWord
  | andOrWord
  | andWord
  | deriveWord
  | selfWord
  | whereWord
  | inverseWord
  | ruleWord
  | functionWord
  | procedureWord
  | constantWord
  | useWord
  | referenceWord
  deriving DecidableEq

namespace Word

/-- A reserved word in capitals. -/
def name : Word → Text
  | schemaWord => "SCHEMA"
  | endSchemaWord => "END_SCHEMA"
  | typeWord => "TYPE"
  | endTypeWord => "END_TYPE"
  | entityWord => "ENTITY"
  | endEntityWord => "END_ENTITY"
  | enumerationWord => "ENUMERATION"
  | selectWord => "SELECT"
  | ofWord => "OF"
  | listWord => "LIST"
  | setWord => "SET"
  | bagWord => "BAG"
  | arrayWord => "ARRAY"
  | uniqueWord => "UNIQUE"
  | optionalWord => "OPTIONAL"
  | integerWord => "INTEGER"
  | realWord => "REAL"
  | numberWord => "NUMBER"
  | stringWord => "STRING"
  | booleanWord => "BOOLEAN"
  | logicalWord => "LOGICAL"
  | binaryWord => "BINARY"
  | fixedWord => "FIXED"
  | abstractWord => "ABSTRACT"
  | supertypeWord => "SUPERTYPE"
  | subtypeWord => "SUBTYPE"
  | oneOfWord => "ONEOF"
  | andOrWord => "ANDOR"
  | andWord => "AND"
  | deriveWord => "DERIVE"
  | selfWord => "SELF"
  | whereWord => "WHERE"
  | inverseWord => "INVERSE"
  | ruleWord => "RULE"
  | functionWord => "FUNCTION"
  | procedureWord => "PROCEDURE"
  | constantWord => "CONSTANT"
  | useWord => "USE"
  | referenceWord => "REFERENCE"

/-- All reserved words. -/
def all : List Word :=
  [ schemaWord, endSchemaWord, typeWord, endTypeWord, entityWord, endEntityWord,
    enumerationWord, selectWord, ofWord, listWord, setWord, bagWord, arrayWord,
    uniqueWord, optionalWord, integerWord, realWord, numberWord, stringWord,
    booleanWord, logicalWord, binaryWord, fixedWord, abstractWord, supertypeWord,
    subtypeWord, oneOfWord, andOrWord, andWord, deriveWord, selfWord, whereWord,
    inverseWord, ruleWord, functionWord, procedureWord, constantWord, useWord,
    referenceWord ]

/-- The reserved word with a spelling, letter case ignored. -/
def find? (spelling : Text) : Option Word := all.find? fun word => word.name = spelling.upper

/-- The words that start a declaration or a clause of a kind that is not read. -/
def isUnsupported : Word → Bool
  | whereWord => true
  | inverseWord => true
  | uniqueWord => true
  | ruleWord => true
  | functionWord => true
  | procedureWord => true
  | constantWord => true
  | useWord => true
  | referenceWord => true
  | _ => false

end Word

/-- The single signs. -/
inductive Sign where
  | leftParen
  | rightParen
  | leftBracket
  | rightBracket
  | comma
  | semicolon
  | colon
  | equals
  | question
  | backslash
  | dot
  deriving DecidableEq

namespace Sign

/-- The name of a sign in messages. -/
def name : Sign → Text
  | leftParen => "LPAREN"
  | rightParen => "RPAREN"
  | leftBracket => "LBRACKET"
  | rightBracket => "RBRACKET"
  | comma => "COMMA"
  | semicolon => "SEMI"
  | colon => "COLON"
  | equals => "EQUALS"
  | question => "QUESTION"
  | backslash => "BACKSLASH"
  | dot => "DOT"

/-- The code point that a sign is. -/
def spelling : Sign → CodePoint
  | leftParen => '('
  | rightParen => ')'
  | leftBracket => '['
  | rightBracket => ']'
  | comma => ','
  | semicolon => ';'
  | colon => ':'
  | equals => '='
  | question => '?'
  | backslash => '\\'
  | dot => '.'

/-- All signs. -/
def all : List Sign :=
  [ leftParen, rightParen, leftBracket, rightBracket, comma, semicolon, colon, equals, question,
    backslash, dot ]

/-- The sign that a code point is. -/
def find? (c : CodePoint) : Option Sign := all.find? fun sign => sign.spelling = c

end Sign

/-- A word of a schema text with its value. -/
inductive Lexeme where
  | word (word : Word) (spelling : Text)
  | identifier (name : Text)
  | number (value : Nat)
  /-- the text of an expression, without blanks at its ends -/
  | expression (text : Text)
  | sign (sign : Sign)
  deriving DecidableEq

namespace Lexeme

/-- The name of the class of a lexeme. -/
def kindName : Lexeme → Text
  | word w _ => w.name
  | identifier _ => "ID"
  | number _ => "INT"
  | expression _ => "EXPRESSION"
  | sign s => s.name

/-- A lexeme as messages show it. -/
def toText : Lexeme → Text
  | word _ spelling => spelling
  | identifier name => name
  | number value => Text.ofNat value
  | expression text => text
  | sign s => [s.spelling]

end Lexeme

/-- A lexeme with the offset and the line of its first code point. -/
structure Token where
  lexeme : Lexeme
  offset : Nat
  line : Nat
  deriving DecidableEq

/-- Why no lexeme can be cut from a text. -/
inductive LexFault where
  | illegal (c : CodePoint)
  /-- a number with more digits than are read -/
  | tooManyDigits (count : Nat)
  deriving DecidableEq

/-- The tokens of a text, up to its end or the first place where no lexeme can
be cut. -/
structure TokenRun where
  tokens : List Token
  stop : Option (LexFault × Nat)

/-- What is cut from the start of a text: a lexeme, or nothing for blanks and
comments, and its length. -/
structure Cut where
  lexeme : Option Lexeme
  length : Nat

namespace Cut

/-- The comment in parentheses behind whose opening `t` stands, by its length. -/
def comment? (t : Text) : Option Cut :=
  (Text.cut? "*)" t).map fun parts => ⟨none, parts.1.length + 4⟩

/-- The expression behind whose `:=` the text `t` stands. -/
def expression? (t : Text) : Option Cut :=
  (Text.cut? ";" t).map fun parts =>
    ⟨some (.expression (Text.trim CodePoint.isBlank parts.1)), parts.1.length + 3⟩

/-- The number that starts `t`. -/
def number (t : Text) : Except LexFault Cut :=
  let digits : Text := t.takeWhile CodePoint.isDigit
  if Numeral.digitLimit < digits.length then .error (.tooManyDigits digits.length)
  else .ok ⟨some (.number digits.digitsValue), digits.length⟩

/-- The reserved word or identifier that starts `t`. -/
def name (t : Text) : Cut :=
  let spelling : Text := t.takeWhile CodePoint.continuesName
  match Word.find? spelling with
  | some word => ⟨some (.word word spelling), spelling.length⟩
  | none => ⟨some (.identifier spelling), spelling.length⟩

/-- The code points that separate lexemes. -/
def isSeparator (c : CodePoint) : Bool :=
  decide (c = ' ') || decide (c = '\t') || decide (c = '\r') || decide (c = '\n')

/-- The comment that starts a text, or the expression behind a `:=` there, if it
is closed. -/
def closed? (t : Text) : Option Cut :=
  match Text.dropStart? "(*" t with
  | some rest => comment? rest
  | none =>
    match Text.dropStart? ":=" t with
    | some rest => expression? rest
    | none => none

/-- What stands at the start of the text `c :: rest`. -/
def first (c : CodePoint) (rest : Text) : Except LexFault Cut :=
  if isSeparator c then .ok ⟨none, 1⟩
  else
    match closed? (c :: rest) with
    | some cut => .ok cut
    | none =>
      if c.isDigit then number (c :: rest)
      else if c.isLetter then .ok (name (c :: rest))
      else if (Text.ofString "--").isPrefixOf (c :: rest) then
        .ok ⟨none, ((c :: rest).takeWhile (· ≠ Text.lineFeed)).length⟩
      else
        match Sign.find? c with
        | some sign => .ok ⟨some (.sign sign), 1⟩
        | none => .error (.illegal c)

end Cut

namespace Token

/-- The tokens of `t`, which stands at the given offset and line. -/
def run (t : Text) (offset line : Nat) : TokenRun :=
  match t with
  | [] => ⟨[], none⟩
  | c :: rest =>
    match Cut.first c rest with
    | .error fault => ⟨[], some (fault, offset)⟩
    | .ok cut =>
      let more :=
        run (rest.drop (cut.length - 1)) (offset + cut.length)
          (line + Text.lineFeeds ((c :: rest).take cut.length))
      match cut.lexeme with
      | none => more
      | some lexeme => { more with tokens := ⟨lexeme, offset, line⟩ :: more.tokens }
termination_by t.length
decreasing_by simp only [List.length_drop, List.length_cons]; omega

/-- The tokens of a text. -/
def ofText (t : Text) : TokenRun := run t 0 1

end Token

end Express

end Part21
