import Part21.Text.Capital
import Part21.Text.Small

set_option autoImplicit false

/-!
# Types of a schema

A schema gives names to types.  The simple types are built in.  A defined type
renames another type, an enumeration lists names, a select offers the choice
between types, an aggregate holds many values of a type, and an entity has
attributes, each of a type.  Types refer to each other by name; `TypeDef.ref` is
such a reference, and what it stands for depends on the registry.

These are the descriptors of section B.6 of `SPEC_FULL.md`.
-/

namespace Part21

/-- The types that are built in. -/
inductive SimpleType where
  | integer
  | real
  | number
  | string
  | boolean
  | logical
  | binary
  deriving DecidableEq

namespace SimpleType

/-- The name of a simple type. -/
def name : SimpleType → Text
  | integer => "INTEGER"
  | real => "REAL"
  | number => "NUMBER"
  | string => "STRING"
  | boolean => "BOOLEAN"
  | logical => "LOGICAL"
  | binary => "BINARY"

/-- All simple types, in the order in which a registry lists them. -/
def all : List SimpleType := [integer, real, number, string, boolean, logical, binary]

end SimpleType

/-- The kinds of aggregates. -/
inductive AggregateKind where
  | list
  | set
  | bag
  | array
  deriving DecidableEq

namespace AggregateKind

/-- The name of a kind of aggregate. -/
def name : AggregateKind → Text
  | list => "LIST"
  | set => "SET"
  | bag => "BAG"
  | array => "ARRAY"

end AggregateKind

mutual

/-- A type. -/
inductive TypeDef where
  /-- the type that the registry has under a name -/
  | ref (name : Text)
  /-- a type of which only the name is known -/
  | plain (name : Text)
  | simple (type : SimpleType)
  | defined (name : Text) (underlying : TypeDef)
  | enumeration (name : Text) (items : List Text)
  | select (name : Text) (options : List Text)
  /-- an aggregate with the least and, if there is one, the greatest number of
  elements -/
  | aggregate (name : Text) (element : TypeDef) (kind : AggregateKind) (lower : Int)
    (upper : Option Int)
  | entity (definition : EntityType)

/-- An entity type with the attributes that it declares itself.  `overrides`
names attributes of supertypes that it redeclares as derived, each with the
supertype that declares it. -/
structure EntityType where
  name : Text
  attributes : List Attribute
  supertypes : List Text
  isAbstract : Bool
  overrides : List (Text × Text)

/-- An attribute: one place in the instances of an entity type. -/
structure Attribute where
  name : Text
  type : TypeDef
  optional : Bool
  derived : Bool

end

/-- A select type: the names of the types it offers. -/
structure SelectType where
  name : Text
  options : List Text

namespace EntityType

/-- The name under which a registry has the entity type. -/
def key (e : EntityType) : Text := e.name.upper

/-- The first attribute with a name that the entity type declares itself, letter
case ignored. -/
def attribute? (e : EntityType) (name : Text) : Option Attribute :=
  e.attributes.find? fun a => a.name.lower = name.lower

end EntityType

namespace TypeDef

/-- The name of a type. -/
def name : TypeDef → Text
  | ref name => name
  | plain name => name
  | simple type => type.name
  | defined name _ => name
  | enumeration name _ => name
  | select name _ => name
  | aggregate name _ _ _ _ => name
  | entity definition => definition.name

/-- The name under which a registry has a type. -/
def key (t : TypeDef) : Text := t.name.upper

/-- The definition of an entity type. -/
def entity? : TypeDef → Option EntityType
  | entity definition => some definition
  | _ => none

/-- An entity type. -/
def isEntity (t : TypeDef) : Bool := t.entity?.isSome

/-- The description of a type in messages: its name, and for an aggregate its
bounds and the description of its elements. -/
def describe : TypeDef → Text
  | aggregate _ element kind lower upper =>
    let greatest : Text :=
      match upper with
      | some n => Text.ofInt n
      | none => "?"
    kind.name ++ " [" ++ Text.ofInt lower ++ ":" ++ greatest ++ "] OF " ++ describe element
  | other => other.name

/-- The item of an enumeration with a name, letter case ignored, as it was
declared. -/
def item? (items : List Text) (name : Text) : Option Text :=
  items.find? fun item => item.upper = name.upper

/-- The aggregate of an element type, with the name that such a type has where
it is written without one. -/
def unnamedAggregate (element : TypeDef) (kind : AggregateKind) (lower : Int)
    (upper : Option Int) : TypeDef :=
  aggregate (kind.name ++ " OF " ++ element.name) element kind lower upper

/-- How many options a type offers, looked at through defined types that are
written out. -/
def optionCount : TypeDef → Nat
  | select _ options => options.length
  | defined _ underlying => optionCount underlying
  | _ => 0

/-- How many supertypes a type names. -/
def supertypeCount : TypeDef → Nat
  | entity definition => definition.supertypes.length
  | _ => 0

end TypeDef

end Part21
