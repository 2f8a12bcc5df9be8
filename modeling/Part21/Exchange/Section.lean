import Part21.Exchange.Header
import Part21.Journal

set_option autoImplicit false

/-!
# Data sections and exchange structures

A data section is a row of records, an exchange structure a header and a row of
data sections.  No two records of a section have the same name, and neither have
two records of an exchange structure.  Records without a name do not count.

Section 3 of `SPEC_FULL.md`, *Data Section*, and the assembler of 4.3:
`assemble_data_section` and `assemble_exchange_file`.
-/

namespace Part21

/-- A record whose name an earlier one has. -/
structure DuplicateName where
  id : Int
  firstOffset : Option Nat
  offset : Option Nat
  line : Option Nat
  deriving DecidableEq

namespace DuplicateName

/-- The text of the fault. -/
def message (d : DuplicateName) : Text := "Duplicate entity instance name #" ++ Text.ofInt d.id

end DuplicateName

namespace Record

/-- The first record of a row whose name is among those of the records before
it, `earlier` included, against the first record of that name. -/
def duplicate? (earlier : List Record) : List Record → Option DuplicateName
  | [] => none
  | record :: rest =>
    match record.id with
    | none => duplicate? earlier rest
    | some id =>
      match earlier.find? fun first => first.id = some id with
      | some first => some ⟨id, first.offset, record.offset, record.line⟩
      | none => duplicate? (earlier ++ [record]) rest

end Record

/-- The records of a data section with its parameters, which most sections lack,
and the header it stands under. -/
structure DataSection where
  records : List Record
  parameters : List Parameter
  header : Header

namespace DataSection

/-- The names of the records, in the order of the text. -/
def ids (s : DataSection) : List Int := s.records.filterMap Record.id

/-- The section of the given records, if no name occurs twice. -/
def assemble (records : List Record) (parameters : List Parameter) (header : Header) :
    Except DuplicateName DataSection :=
  match Record.duplicate? [] records with
  | some duplicate => .error duplicate
  | none => .ok ⟨records, parameters, header⟩

/-- The sections of the given rows of records, one after another, if no name occurs
twice in one of them. -/
def assembleEach : List DataSection → Except DuplicateName (List DataSection)
  | [] => .ok []
  | s :: rest =>
    match assemble s.records s.parameters s.header with
    | .error duplicate => .error duplicate
    | .ok own =>
      match assembleEach rest with
      | .error duplicate => .error duplicate
      | .ok others => .ok (own :: others)

/-- The first record of sections, one after another, whose name is among those of the
records before it, `earlier` included, against the first record of that name. -/
def duplicate? (earlier : List Record) : List DataSection → Option DuplicateName
  | [] => none
  | s :: rest =>
    match Record.duplicate? earlier s.records with
    | some duplicate => some duplicate
    | none => duplicate? (earlier ++ s.records) rest

/-- The event that reports a section. -/
def event (s : DataSection) : Event := .sectionAssembled s.records.length

end DataSection

/-- A whole exchange structure. -/
structure ExchangeFile where
  header : Header
  sections : List DataSection

namespace ExchangeFile

/-- The records of all sections, in the order of the text. -/
def records (f : ExchangeFile) : List Record := f.sections.flatMap DataSection.records

/-- The names of the records of all sections. -/
def ids (f : ExchangeFile) : List Int := f.records.filterMap Record.id

/-- The exchange structure of the given sections, all under one header, if no
name occurs twice. -/
def assemble (header : Header) (sections : List DataSection) :
    Except DuplicateName ExchangeFile :=
  match DataSection.duplicate? [] sections with
  | some duplicate => .error duplicate
  | none => .ok ⟨header, sections.map fun s => { s with header := header }⟩

/-- The event that reports an exchange structure. -/
def event (f : ExchangeFile) : Event := .exchangeAssembled f.sections.length f.ids.length

end ExchangeFile

end Part21
