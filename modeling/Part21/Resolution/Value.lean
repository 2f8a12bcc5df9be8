import Part21.Number.Binary64
import Part21.Resolution.Fields

set_option autoImplicit false

/-!
# Values and instances

A resolved instance is an entity, or several entities under one name if its
record is complex.  An attribute that refers to an instance holds the name of
that instance and not the instance itself, so values are finite also where
instances refer to each other in a circle.  Outside code may build instances of
another form, from fields and rows.

Section B.7 of `SPEC_FULL.md`: `Entity`, `ComplexEntity`, `Reference` and `TypedValue`.
-/

namespace Part21

/-- The value of an attribute. -/
inductive Value where
  /-- no value is given -/
  | nothing
  | truth (value : Bool)
  /-- neither true nor false -/
  | unknown
  | integer (value : Int)
  | real (value : Binary64)
  /-- a text, or the name of an item of an enumeration -/
  | text (value : Text)
  | binary (unusedBits : Int) (digits : Text)
  /-- the instance of a name -/
  | reference (id : Int)
  /-- a value under the name of the type that was selected for it -/
  | typed (typeName : Text) (value : Value)
  | list (items : List Value)

/-- An instance of one entity type: the name of the type in capitals, the name of
the instance, the names of the type and its supertypes, and the values of its
attributes. -/
structure Entity where
  typeName : Text
  id : Int
  typeNames : List Text
  attributes : Fields Value

/-- An instance of several entity types, each with the attributes that it
declares itself. -/
structure ComplexEntity where
  id : Int
  parts : Fields Entity

/-- What the resolution of an instance yields. -/
inductive Instance where
  | entity (entity : Entity)
  | complex (complex : ComplexEntity)
  | value (value : Value)
  | fields (entries : List (Text × Instance))
  | row (items : List Instance)

namespace Instance

/-- Fields of attribute values. -/
def ofFields (fields : Fields Value) : Instance :=
  .fields (fields.map fun field => (field.1, .value field.2))

/-- A row of attribute values. -/
def ofRow (values : List Value) : Instance := .row (values.map .value)

end Instance

end Part21
