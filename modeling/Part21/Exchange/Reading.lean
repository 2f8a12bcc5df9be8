import Part21.Exchange.Reader
import Part21.Text.Position

set_option autoImplicit false

/-!
# Records, sections and exchange structures from texts

A text is read as a single record, as a data section (with or without the words
around it), or as a whole exchange structure.  Reading fails at the first fault
that it meets.  A lexical fault is met when the token it stands for is needed,
and a repeated name is met when the section or file that holds it is put
together: a section between its words as soon as it is closed, a bare row of
records at the end of the text, and a section of an exchange structure when what
follows it shows that it is complete.

Sections that were put together before a fault are reported all the same, so an
answer comes with the events that led to it.

These are the entry points of section B.10 of `SPEC_FULL.md`: `parse_record`,
`parse_data_section` and `parse_exchange_file`.
-/

namespace Part21

/-- Why a text cannot be read. -/
inductive ReadFault where
  | lexical (error : LexError)
  /-- the grammar has no place for a token, or for the end of the text -/
  | grammatical (found : Option Token) (expected : List Terminal)
  | duplicate (name : DuplicateName)

namespace ReadFault

/-- The text of the fault. -/
def message : ReadFault → Text
  | lexical error => error.fault.message
  | grammatical (some token) _ =>
    "Syntax error at " ++ token.kind.name ++ " " ++ token.lexeme.valueText
  | grammatical none _ => "Syntax error at end of input"
  | duplicate name => name.message

/-- The place of the fault in the text that was read. -/
def location (t : Text) : ReadFault → Location
  | lexical error =>
    if error.fault.isLocated then .ofOffset t error.offset else .unknown
  | grammatical (some token) _ => .ofOffset t token.offset
  | grammatical none _ => .ofOffset t t.length
  | duplicate name => ⟨name.offset, name.line, none⟩

/-- The message of the fault with its place. -/
def describe (t : Text) (fault : ReadFault) : Text := (fault.location t).annotate fault.message

end ReadFault

namespace TokenRun

/-- The fault of a reader that stopped: a lexical one if the tokens ran out at
one. -/
def faultOf (run : TokenRun) (stop : Stop) : ReadFault :=
  match stop.rest, run.stop with
  | token :: _, _ => .grammatical (some token) stop.expected
  | [], some error => .lexical error
  | [], none => .grammatical none stop.expected

/-- Check that no token is left. -/
def finish (run : TokenRun) (rest : List Token) (expected : List Terminal) :
    Except ReadFault Unit :=
  match rest, run.stop with
  | [], none => .ok ()
  | _, _ => .error (run.faultOf ⟨rest, expected⟩)

end TokenRun

namespace Record

/-- The record in front of a row of tokens. -/
def read (ts : List Token) : Answer Record :=
  match ts with
  | [] => Reader.stop [.entityName, .keyword] []
  | t :: rest =>
    match t.lexeme with
    | .entityName id => Reader.namedRecord id t rest
    | .keyword keyword => Reader.unnamedRecord keyword t rest
    | _ => Reader.stop [.entityName, .keyword] (t :: rest)

/-- The record of a run of tokens that holds nothing else. -/
def ofRun (run : TokenRun) : Except ReadFault Record :=
  match read run.tokens with
  | .error stop => .error (run.faultOf stop)
  | .ok (record, rest) =>
    match run.finish rest [.endOfInput] with
    | .error fault => .error fault
    | .ok () => .ok record

/-- The record that a text holds. -/
def ofText (t : Text) : Except ReadFault Record := ofRun (Token.ofText t)

end Record

namespace DataSection

/-- What can start the text of a section. -/
def starts : List Terminal := [.lexeme .data, .lexeme .entityName, .endOfInput]

/-- What can follow an instance, within a section or in a bare row. -/
def behindInstance : List Terminal := [.lexeme .endSection, .lexeme .entityName, .endOfInput]

/-- What can follow an instance in a bare row. -/
def inRow : List Terminal := [.lexeme .entityName, .endOfInput]

/-- Put a section together that stands under no header. -/
def assembleAlone (records : List Record) (parameters : List Parameter) :
    Except ReadFault DataSection :=
  match assemble records parameters ⟨[]⟩ with
  | .error name => .error (.duplicate name)
  | .ok data => .ok data

/-- The section of a run of tokens that holds nothing else. -/
def ofRun (run : TokenRun) : List Event × Except ReadFault DataSection :=
  match run.tokens with
  | ⟨.data, _, _⟩ :: inside =>
    match Reader.dataSection behindInstance inside with
    | .error stop => ([], .error (run.faultOf stop))
    | .ok ((parameters, records), rest) =>
      match assembleAlone records parameters with
      | .error fault => ([], .error fault)
      | .ok data =>
        match run.finish rest [.endOfInput] with
        | .error fault => ([data.event], .error fault)
        | .ok () => ([data.event], .ok data)
  | tokens =>
    match Reader.instances behindInstance inRow [] tokens with
    | .error stop => ([], .error (run.faultOf stop))
    | .ok (records, rest) =>
      match run.finish rest (if records.isEmpty then starts else inRow) with
      | .error fault => ([], .error fault)
      | .ok () =>
        match assembleAlone records [] with
        | .error fault => ([], .error fault)
        | .ok data => ([data.event], .ok data)

/-- The section that a text holds. -/
def ofText (t : Text) : List Event × Except ReadFault DataSection := ofRun (Token.ofText t)

end DataSection

namespace ExchangeFile

/-- What can follow a header or a section. -/
def behindSection : List Terminal := Reader.kinds [.data, .closing]

/-- The sections of an exchange structure up to the word that closes it.
`before` are those read so far, the last one first. -/
def readSections (run : TokenRun) (header : Header) (before : List DataSection) (ts : List Token) :
    List Event × Except ReadFault (List DataSection × List Token) :=
  match Reader.follow behindSection behindSection ts with
  | .error stop => ([], .error (run.faultOf stop))
  | .ok () =>
    match ts with
    | ⟨.data, _, _⟩ :: inside =>
      match _h : Reader.dataSection Reader.inSection inside with
      | .error stop => ([], .error (run.faultOf stop))
      | .ok ((parameters, records), rest) =>
        match Reader.follow behindSection behindSection rest with
        | .error stop => ([], .error (run.faultOf stop))
        | .ok () =>
          match DataSection.assemble records parameters ⟨[]⟩ with
          | .error name => ([], .error (.duplicate name))
          | .ok data =>
            let (events, answer) := readSections run header (data :: before) rest
            (data.event :: events, answer)
    | _ => ([], .ok (before.reverse, ts.drop 1))
termination_by ts.length
decreasing_by
  have := Reader.dataSection_length _h
  simp only [List.length_cons]
  omega

/-- Everything in front of the sections: the opening word and the header. -/
def preamble (ts : List Token) : Answer Header :=
  match Reader.require .opening ts with
  | .error stop => .error stop
  | .ok semicolon =>
    match Reader.require .semicolon semicolon with
    | .error stop => .error stop
    | .ok inside => Reader.header inside

/-- The exchange structure of a run of tokens that holds nothing else. -/
def ofRun (run : TokenRun) : List Event × Except ReadFault ExchangeFile :=
  match preamble run.tokens with
  | .error stop => ([], .error (run.faultOf stop))
  | .ok (header, inside) =>
    match readSections run header [] inside with
    | (events, .error fault) => (events, .error fault)
    | (events, .ok (data, closing)) =>
      match Reader.require .semicolon closing with
      | .error stop => (events, .error (run.faultOf stop))
      | .ok rest =>
        match assemble header data with
        | .error name => (events, .error (.duplicate name))
        | .ok file =>
          match run.finish rest [.endOfInput] with
          | .error fault => (events ++ [file.event], .error fault)
          | .ok () => (events ++ [file.event], .ok file)

/-- The exchange structure that a text holds. -/
def ofText (t : Text) : List Event × Except ReadFault ExchangeFile := ofRun (Token.ofText t)

end ExchangeFile

end Part21
