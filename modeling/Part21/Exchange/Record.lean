import Part21.Exchange.Parameter

set_option autoImplicit false

/-!
# Records

A record is one instance of an exchange structure as it stands in the text.  A
simple record is a keyword with parameters.  A complex record lists several such
groups, one for each entity type that the instance belongs to.  Records of a
data section have a name, a number that other records refer to; records of a
header have none.

Section 3 of `SPEC_FULL.md`, *Record*, and `Record.references` of B.5.
-/

namespace Part21

/-- A keyword with its parameters. -/
structure Group where
  keyword : Text
  parameters : List Parameter

/-- What a record holds.  A complex record has at least one part.  Parameters
given beside the parts belong to none of them; nothing reads them, and they only
tell two such records apart. -/
inductive Body where
  | simple (group : Group)
  | complex (first : Group) (others : List Group) (loose : List Parameter)

/-- One instance, with the place of its first token if it comes from a text. -/
structure Record where
  id : Option Int
  body : Body
  offset : Option Nat
  line : Option Nat

/-- Why there is no record with given contents. -/
inductive RecordFault where
  /-- neither a keyword nor a part -/
  | empty
  /-- a keyword beside the parts -/
  | keywordOfComplex
  deriving DecidableEq

namespace RecordFault

/-- The text of the fault. -/
def message : RecordFault → Text
  | empty => "A record needs a keyword or at least one part"
  | keywordOfComplex => "A complex record must not have its own keyword"

end RecordFault

namespace Group

/-- The same keyword with the same parameters. -/
def same (a b : Group) : Bool :=
  decide (a.keyword = b.keyword) && Parameter.allSame a.parameters b.parameters

/-- Two rows of the same groups. -/
def allSame : List Group → List Group → Bool
  | [], [] => true
  | a :: s, b :: t => a.same b && allSame s t
  | _, _ => false

end Group

namespace Body

/-- The groups of a record: its parts, or the one group of a simple record. -/
def groups : Body → List Group
  | simple group => [group]
  | complex first others _ => first :: others

/-- Several groups, if only one, between parentheses. -/
def isComplex : Body → Bool
  | simple _ => false
  | complex _ _ _ => true

/-- The same groups in the same form. -/
def same : Body → Body → Bool
  | simple a, simple b => a.same b
  | complex a s loose, complex b t loose' =>
    a.same b && Group.allSame s t && Parameter.allSame loose loose'
  | _, _ => false

end Body

namespace Record

/-- The record with the given contents. -/
def make (id : Option Int) (keyword : Option Text) (parameters : List Parameter)
    (parts : List Group) (offset line : Option Nat) : Except RecordFault Record :=
  match keyword, parts with
  | some keyword, [] => .ok ⟨id, .simple ⟨keyword, parameters⟩, offset, line⟩
  | none, first :: others => .ok ⟨id, .complex first others parameters, offset, line⟩
  | none, [] => .error .empty
  | some _, _ :: _ => .error .keywordOfComplex

/-- The groups of a record. -/
def groups (r : Record) : List Group := r.body.groups

/-- A record of several groups, if only one. -/
def isComplex (r : Record) : Bool := r.body.isComplex

/-- The keywords of a record, one for each group. -/
def keywords (r : Record) : List Text := r.groups.map Group.keyword

/-- The keyword of a simple record. -/
def keyword? (r : Record) : Option Text :=
  match r.body with
  | .simple group => some group.keyword
  | .complex _ _ _ => none

/-- The parameters of a simple record. -/
def parameters (r : Record) : List Parameter :=
  match r.body with
  | .simple group => group.parameters
  | .complex _ _ loose => loose

/-- The instances that a record names, in the order of the text. -/
def references (r : Record) : List Int :=
  r.groups.flatMap fun group => Parameter.allReferences group.parameters

/-- Two records are the same if names and contents are; their places do not
matter. -/
def same (a b : Record) : Bool := decide (a.id = b.id) && a.body.same b.body

/-- The keywords of a record with strokes between them. -/
def keywordText (r : Record) : Text := Text.join "/" r.keywords

/-- A record in short, as messages show it. -/
def toText (r : Record) : Text :=
  let name : Text :=
    match r.id with
    | some id => "#" ++ Text.ofInt id
    | none => "<unnamed>"
  "Record(" ++ name ++ ", " ++ r.keywordText ++ ")"

end Record

end Part21
