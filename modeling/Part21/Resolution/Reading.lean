import Part21.Resolution.Table

set_option autoImplicit false

/-!
# Reading instances

The attributes of an instance are read by name.  A few names, such as `id`, are
names of what an instance has besides its attributes, and they come first.  Values
have members too: a binary has bits, a number a real and an imaginary part.  A way
from one instance to the next follows the references in the attributes that are
read; the instances they lead to are resolved where that is still to be done.  A
reference that is bound to no table leads nowhere.

Sections B.7 and 9 of `SPEC_FULL.md`: the attributes and parts of an `Entity` and a
`ComplexEntity`, and `Reference.get`.
-/

namespace Part21

/-- What is found in an instance. -/
inductive Finding where
  | instance (value : Instance)
  /-- names in no particular order -/
  | names (names : List Text)

/-- Why nothing is found. -/
inductive Absence where
  /-- an entity type has no such attribute -/
  | noAttribute (typeName name : Text)
  /-- no part of a complex instance has such an attribute -/
  | noAttributeOfParts (id : Int) (name : Text)
  /-- no attribute has a name that starts with a low line -/
  | hidden (name : Text)
  /-- there is no field of that name -/
  | noField (name : Text)
  /-- fields have names, not numbers -/
  | noNumberedField (index : Int)
  | noPart (id : Int) (typeName : Text)
  /-- a list, a row or a text has no element of that number -/
  | noElement (of : Finding) (fault : PlaceFault)
  /-- what is found is nothing that has members of that name -/
  | noMember (of : Finding) (name : Text)
  /-- what is found is nothing that has elements -/
  | noElements (of : Finding)
  /-- a row has elements by number and not by name -/
  | noNames (of : Finding)
  /-- what is found under the name of a question is no question -/
  | noQuestion (found : Finding)
  /-- a binary with other digits than hexadecimal ones has no bits -/
  | noBits (fault : StringFault)

namespace Absence

/-- The text of the absence, where it does not depend on what else was found. -/
def message : Absence → Text
  | noAttribute typeName name => "'" ++ typeName ++ "' has no attribute '" ++ name ++ "'"
  | noAttributeOfParts id name =>
    "#" ++ Text.ofInt id ++ " has no attribute '" ++ name ++ "'"
  | hidden name => name
  | noField name => name.quoted
  | noNumberedField index => Text.ofInt index
  | noPart id typeName =>
    Text.quoted ("#" ++ Text.ofInt id ++ " has no part of type '" ++ typeName ++ "'")
  | noBits fault => fault.message
  | noElement _ _ | noMember _ _ | noElements _ | noNames _ | noQuestion _ => []

end Absence

namespace Finding

/-- A value of an attribute. -/
def ofValue (v : Value) : Finding := .instance (.value v)

/-- Attributes with their values. -/
def ofFields (fields : Fields Value) : Finding := .instance (.ofFields fields)

end Finding

namespace Value

/-- What a value has under a name. -/
def member (v : Value) (name : Text) : Except Absence Finding :=
  let missing : Except Absence Finding := .error (.noMember (.ofValue v) name)
  let number (whole : Int) : Except Absence Finding :=
    if name = "real" || name = "numerator" then .ok (.ofValue (.integer whole))
    else if name = "imag" then .ok (.ofValue (.integer 0))
    else if name = "denominator" then .ok (.ofValue (.integer 1))
    else missing
  match v with
  | reference id => if name = "id" then .ok (.ofValue (.integer id)) else missing
  | typed typeName value =>
    if name = "type_name" then .ok (.ofValue (.text typeName))
    else if name = "value" then .ok (.ofValue value)
    else missing
  | binary unusedBits digits =>
    if name = "unused_bits" then .ok (.ofValue (.integer unusedBits))
    else if name = "hex_digits" then .ok (.ofValue (.text digits))
    else if name = "bits" then
      match Binary.bits unusedBits digits with
      | .ok bits => .ok (.ofValue (.text bits))
      | .error fault => .error (.noBits fault)
    else missing
  | integer n => number n
  | truth b => number (if b then 1 else 0)
  | real x =>
    if name = "real" then .ok (.ofValue (.real x))
    else if name = "imag" then .ok (.ofValue (.real .zero))
    else missing
  | _ => missing

end Value

/-- The name starts with a low line. -/
def isHidden (name : Text) : Bool := name.head?.any fun (c : CodePoint) => decide (c = '_')

namespace Entity

/-- The entity is of the type, or of one of its subtypes. -/
def hasType (e : Entity) (name : Text) : Bool :=
  e.typeNames.contains name.upper || decide (name.upper = e.typeName)

/-- What an entity has under a name. -/
def member (e : Entity) (name : Text) : Except Absence Finding :=
  if name = "type_name" then .ok (.ofValue (.text e.typeName))
  else if name = "attributes" then .ok (.ofFields e.attributes)
  else if name = "id" then .ok (.ofValue (.integer e.id))
  else if name = "type_names" then .ok (.names e.typeNames)
  else if isHidden name then .error (.hidden name)
  else
    match e.attributes.find? name with
    | some v => .ok (.ofValue v)
    | none => .error (.noAttribute e.typeName name)

end Entity

namespace ComplexEntity

/-- The names of the types of all parts and of their supertypes. -/
def typeNames (c : ComplexEntity) : List Text :=
  (c.parts.values.flatMap fun part => part.typeNames ++ [part.typeName]).eraseDups

/-- Some part is of the type, or of one of its subtypes. -/
def hasType (c : ComplexEntity) (name : Text) : Bool :=
  c.parts.values.any fun part => part.hasType name

/-- The part of a type, or else the first part of one of its subtypes. -/
def part (c : ComplexEntity) (name : Text) : Except Absence Entity :=
  match c.parts.find? name.upper with
  | some part => .ok part
  | none =>
    match c.parts.values.find? fun part => part.hasType name with
    | some part => .ok part
    | none => .error (.noPart c.id name)

/-- The attributes of all parts, part after part. -/
def attributes (c : ComplexEntity) : Fields Value :=
  c.parts.values.foldl (fun done part => Fields.merge done part.attributes) []

/-- The value of an attribute in the first part that has it. -/
def attribute? (c : ComplexEntity) (name : Text) : Option Value :=
  c.parts.values.findSome? fun part => part.attributes.find? name

/-- What a complex instance has under a name. -/
def member (c : ComplexEntity) (name : Text) : Except Absence Finding :=
  if name = "id" then .ok (.ofValue (.integer c.id))
  else if name = "parts" then
    .ok (.instance (.fields (c.parts.map fun part => (part.1, .entity part.2))))
  else if name = "type_names" then .ok (.names c.typeNames)
  else if name = "attributes" then .ok (.ofFields c.attributes)
  else if isHidden name then .error (.hidden name)
  else
    match c.attribute? name with
    | some v => .ok (.ofValue v)
    | none => .error (.noAttributeOfParts c.id name)

end ComplexEntity

namespace Instance

/-- What an instance has under a name. -/
def member (i : Instance) (name : Text) : Except Absence Finding :=
  match i with
  | .entity e => e.member name
  | .complex c => c.member name
  | .value v => v.member name
  | _ => .error (.noMember (.instance i) name)

/-- The answer of an instance to a question that it does not know: the name of the
question is read as that of a member. -/
def unanswered {α : Type} (i : Instance) (question : Text) : Except Absence α :=
  match i.member question with
  | .ok found => .error (.noQuestion found)
  | .error absence => .error absence

/-- The value of an attribute, names of other members left aside. -/
def item (i : Instance) (name : Text) : Except Absence Instance :=
  let found (value : Option Instance) : Except Absence Instance :=
    match value with
    | some value => .ok value
    | none => .error (.noField name)
  match i with
  | .entity e => found ((e.attributes.find? name).map .value)
  | .complex c => found ((c.attributes.find? name).map .value)
  | .fields entries => found ((entries.find? fun entry => entry.1 = name).map Prod.snd)
  | .row _ => .error (.noNames (.instance i))
  | _ => .error (.noElements (.instance i))

/-- All attributes. -/
def attributes (i : Instance) : Except Absence (Fields Value) :=
  match i with
  | .entity e => .ok e.attributes
  | .complex c => .ok c.attributes
  | _ => i.unanswered "attributes"

/-- The attributes of an instance of one type. -/
def asFields (i : Instance) : Except Absence (Fields Value) :=
  match i with
  | .entity e => .ok e.attributes
  | _ => i.unanswered "as_dict"

/-- The instance is of the type, or of one of its subtypes. -/
def hasType (i : Instance) (name : Text) : Except Absence Bool :=
  match i with
  | .entity e => .ok (e.hasType name)
  | .complex c => .ok (c.hasType name)
  | _ => i.unanswered "has_type"

/-- The part of a type. -/
def part (i : Instance) (name : Text) : Except Absence Entity :=
  match i with
  | .complex c => c.part name
  | _ => i.unanswered "part"

/-- The members of an instance one after another: the parts of a complex instance,
the names of fields, the items of a row.  An entity has none that are numbered. -/
def parts (i : Instance) : Except Absence (List Instance) :=
  match i with
  | .complex c => .ok (c.parts.values.map .entity)
  | .fields entries => .ok (entries.map fun entry => .value (.text entry.1))
  | .row items => .ok items
  | .entity _ => .error (.noNumberedField 0)
  | .value _ => .error (.noElements (.instance i))

end Instance

/-! ## References -/

/-- A reference to an instance: its name, and the table that has it, unless the reference is bound
to none. -/
structure Reference where
  id : Int
  table : Option Table

/-- A reference to an instance is followed that is bound to no table. -/
structure Unbound where
  id : Int
  deriving DecidableEq

/-- The text of the fault. -/
def Unbound.message (u : Unbound) : Text :=
  "#" ++ Text.ofInt u.id ++ " is not bound to a live entity table"

namespace Reference

/-- Two references are the same if they name the same instance, whatever they are bound to. -/
def same (a b : Reference) : Bool := decide (a.id = b.id)

/-- A reference as messages show it. -/
def toText (a : Reference) : Text := "Reference(#" ++ Text.ofInt a.id ++ ")"

/-- The table that a reference is bound to. -/
def bound (a : Reference) : Except Unbound Table :=
  match a.table with
  | some t => .ok t
  | none => .error ⟨a.id⟩

/-- The instance that a reference leads to, resolved where that is still to be done. -/
def get (a : Reference) : Except Unbound (Except Thrown Instance × Table) :=
  a.bound.map fun t => t.resolve a.id none

/-- The record that a reference leads to. -/
def record (a : Reference) : Except Unbound (Except Thrown Record) :=
  a.bound.map fun t => t.lookup a.id

end Reference

/-! ## Ways from instance to instance -/

/-- One step of a way: to a member, or to an element of a list, a row or a text. -/
inductive WayStep where
  | member (name : Text)
  | element (place : Int)

namespace Finding

/-- The element at a place of what was found, given all its elements. -/
def elementOf (f : Finding) (items : List Instance) (place : Int) : Except Absence Finding :=
  match Place.element items place with
  | .ok i => .ok (.instance i)
  | .error fault => .error (.noElement f fault)

/-- Go one step on from what was found. -/
def step (f : Finding) : WayStep → Except Absence Finding
  | .member name =>
    match f with
    | .instance i => i.member name
    | .names _ => .error (.noMember f name)
  | .element place =>
    match f with
    | .instance (.value (.list items)) => f.elementOf (items.map .value) place
    | .instance (.value (.text t)) => f.elementOf (t.map fun c => .value (.text [c])) place
    | .instance (.row items) => f.elementOf items place
    | .instance (.entity _) => .error (.noNumberedField place)
    | .instance (.complex _) => .error (.noNumberedField place)
    | .instance (.fields _) => .error (.noNumberedField place)
    | _ => .error (.noElements f)

/-- A value without the name of the type that was selected for it. -/
def bare : Finding → Finding
  | .instance (.value (.typed _ value)) => .ofValue value
  | f => f

end Finding

namespace Table

/-- The instance that a reference leads to; all else stays. -/
def target (t : Table) : Finding → Except Thrown Finding × Table
  | .instance (.value (.reference id)) =>
    match t.resolve id none with
    | (.ok value, t) => (.ok (.instance value), t)
    | (.error thrown, t) => (.error thrown, t)
  | f => (.ok f, t)

/-- Where a way leads from what was found, and what is missing there. -/
def follow (t : Table) (f : Finding) :
    List WayStep → Except Thrown (Except Absence Finding) × Table
  | [] => (.ok (.ok f), t)
  | s :: rest =>
    match t.target f with
    | (.error thrown, t) => (.error thrown, t)
    | (.ok f, t) =>
      match f.bare.step s with
      | .error absence => (.ok (.error absence), t)
      | .ok next => follow t next rest

/-- Where a way leads from an instance. -/
def walk (t : Table) (id : Int) (way : List WayStep) :
    Except Thrown (Except Absence Finding) × Table :=
  match t.resolve id none with
  | (.error thrown, t) => (.error thrown, t)
  | (.ok value, t) => t.follow (.instance value) way

end Table

end Part21
