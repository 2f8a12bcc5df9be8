import Part21.Text.Position
import Part21.Text.Quoted

set_option autoImplicit false

/-!
# Faults of schemas

What can be wrong with the text of a schema, with the types of a registry, or
with a question put to it.

These are the reasons of a `SchemaError` (`SPEC_FULL.md`, section B.4).
-/

namespace Part21

/-- A fault of a schema. -/
inductive SchemaFault where
  /-- a code point that starts no lexeme of a schema text -/
  | illegalCharacter (c : CodePoint)
  /-- the text of a schema ends too early -/
  | endOfText
  /-- a declaration of a kind that is not read -/
  | unsupported (spelling : Text)
  /-- a lexeme in the wrong place -/
  | misplaced (spelling : Text)
  /-- a reference to a type is no type of its own -/
  | bareReference (name : Text)
  /-- two types of one name -/
  | duplicate (name : Text)
  /-- only entity types are built by holders -/
  | holderOfOther (name : Text)
  /-- there is no type of that name -/
  | notFound (name : Text)
  /-- the type of that name is no entity type -/
  | notEntity (name : Text)
  /-- a type refers to one that there is not -/
  | undefined (name : Text)
  /-- an attribute is redeclared of something that is no supertype -/
  | notSupertype (entity owner redeclared : Text)
  /-- a defined type is defined by itself -/
  | selfReference (name : Text)
  | unknownSupertype (entity supertype : Text)
  | cyclicSupertypes (entity : Text)
  | unknownOption (select option : Text)
  /-- going from one defined type to the next comes to no end -/
  | endless
  /-- going into the elements of aggregates comes to no end -/
  | bottomless
  /-- a fault that outside code reports in its own words -/
  | reported (message : Text)
  deriving DecidableEq

namespace SchemaFault

/-- The text of the fault. -/
def message : SchemaFault → Text
  | illegalCharacter c => "Illegal character " ++ Text.quoted [c] ++ " in EXPRESS text"
  | endOfText => "Unexpected end of EXPRESS text"
  | unsupported spelling => "EXPRESS " ++ spelling ++ " declarations are not supported"
  | misplaced spelling => "Syntax error at '" ++ spelling ++ "'"
  | bareReference name => "Cannot register unresolved reference '" ++ name ++ "'"
  | duplicate name => "Type '" ++ name ++ "' is already defined"
  | holderOfOther name => "Holder given for non-entity type '" ++ name ++ "'"
  | notFound name => "Type '" ++ name ++ "' not found"
  | notEntity name => "Type '" ++ name ++ "' is not an entity"
  | undefined name => "Type '" ++ name ++ "' is referenced but not defined"
  | notSupertype entity owner redeclared =>
    "Entity '" ++ entity ++ "' redeclares '" ++ owner ++ "." ++ redeclared ++ "' but '" ++ owner
      ++ "' is not a supertype"
  | selfReference name => "Defined type '" ++ name ++ "' refers to itself"
  | unknownSupertype entity supertype =>
    "Entity '" ++ entity ++ "' has unknown supertype '" ++ supertype ++ "'"
  | cyclicSupertypes entity => "Cyclic supertype declaration involving '" ++ entity ++ "'"
  | unknownOption select option =>
    "Select '" ++ select ++ "' has unknown option '" ++ option ++ "'"
  | endless => []
  | bottomless => []
  | reported message => message

end SchemaFault

/-- A fault of a schema with its place in the text of the schema, if it has one. -/
structure SchemaError where
  fault : SchemaFault
  location : Location
  deriving DecidableEq

namespace SchemaError

/-- A fault without a place. -/
def of (fault : SchemaFault) : SchemaError := ⟨fault, .unknown⟩

/-- The message of the fault with its place. -/
def describe (e : SchemaError) : Text := e.location.annotate e.fault.message

end SchemaError

end Part21
