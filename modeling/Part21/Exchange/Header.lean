import Part21.Exchange.Record
import Part21.Text.Capital

set_option autoImplicit false

/-!
# Headers

The header of an exchange structure is a row of records without names.  Three of
them describe the file; their values are texts, and an unset value counts as the
empty text.

Header accessors are in section B.5 of `SPEC_FULL.md`: `Header.file_description`,
`Header.file_name` and `Header.file_schema`.
-/

namespace Part21

/-- What is wrong with a record that describes the file. -/
inductive HeaderFault where
  | arity (keyword : Text) (expected actual : Nat)
  | notText (value : Parameter)

namespace HeaderFault

/-- The text of the fault. -/
def message : HeaderFault → Text
  | arity keyword expected actual =>
    keyword ++ " expects " ++ Text.ofNat expected ++ " parameters, got " ++ Text.ofNat actual
  | notText value => "Expected a string header value, found " ++ value.toText

end HeaderFault

/-- The records of a header. -/
structure Header where
  records : List Record

/-- What the file holds and how far it conforms. -/
structure FileDescription where
  description : List Text
  implementationLevel : Text

/-- Where the file comes from. -/
structure FileName where
  name : Text
  timeStamp : Text
  author : List Text
  organization : List Text
  preprocessorVersion : Text
  originatingSystem : Text
  authorization : Text

/-- The schemas that the data sections follow. -/
structure FileSchema where
  schemaIdentifiers : List Text

namespace Header

/-- A value as a text. -/
def text : Parameter → Except HeaderFault Text
  | .string value => .ok value
  | .unset => .ok []
  | other => .error (.notText other)

/-- Values as texts. -/
def allTexts : List Parameter → Except HeaderFault (List Text)
  | [] => .ok []
  | value :: rest =>
    match text value with
    | .error fault => .error fault
    | .ok t =>
      match allTexts rest with
      | .error fault => .error fault
      | .ok ts => .ok (t :: ts)

/-- A value as a row of texts: a list, or a single text. -/
def texts : Parameter → Except HeaderFault (List Text)
  | .list items => allTexts items
  | other => allTexts [other]

/-- The first simple record with a keyword, which is sought in capitals. -/
def get? (h : Header) (keyword : Text) : Option Record :=
  h.records.find? fun record => record.keyword? = some keyword.upper

/-- The parameters of the record with a keyword, if there is one, provided that
they are as many as they should be. -/
def parameters? (h : Header) (keyword : Text) (arity : Nat) :
    Except HeaderFault (Option (List Parameter)) :=
  match h.get? keyword with
  | none => .ok none
  | some record =>
    if record.parameters.length = arity then .ok (some record.parameters)
    else .error (.arity keyword arity record.parameters.length)

/-- The description of the file. -/
def fileDescription (h : Header) : Except HeaderFault (Option FileDescription) := do
  match ← h.parameters? "FILE_DESCRIPTION" 2 with
  | some [description, level] =>
    return some ⟨← texts description, ← text level⟩
  | _ => return none

/-- The name of the file. -/
def fileName (h : Header) : Except HeaderFault (Option FileName) := do
  match ← h.parameters? "FILE_NAME" 7 with
  | some [name, stamp, author, organization, version, system, authorization] =>
    return some ⟨← text name, ← text stamp, ← texts author, ← texts organization,
      ← text version, ← text system, ← text authorization⟩
  | _ => return none

/-- The schemas of the file. -/
def fileSchema (h : Header) : Except HeaderFault (Option FileSchema) := do
  match ← h.parameters? "FILE_SCHEMA" 1 with
  | some [identifiers] => return some ⟨← texts identifiers⟩
  | _ => return none

end Header

end Part21
