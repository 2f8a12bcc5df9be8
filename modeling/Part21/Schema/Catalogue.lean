import Part21.Schema.Validation

set_option autoImplicit false

/-!
# Catalogues

A catalogue is a registry that keeps the answers to questions about registered
entity types: their ancestors and their attributes.  A kept answer is given again
until another type is registered.  Questions about an entity type that is brought
along are answered anew each time, also if it has the name of a registered one.

The answers that are kept are those of `ancestors` and `attributes_of` (`SPEC_FULL.md`,
section B.6).
-/

namespace Part21

/-- The entity type that a question is about. -/
inductive Subject where
  /-- the registered one of a name -/
  | registered (name : Text)
  | brought (definition : EntityType)

/-- A registry with the answers that it keeps, by the names of the entity types in
capitals. -/
structure Catalogue where
  registry : Registry
  keptAncestors : Text → Option (List Text)
  keptAttributes : Text → Option (List Attribute)

namespace Catalogue

/-- A registry that has not been asked anything. -/
def ofRegistry (r : Registry) : Catalogue := ⟨r, fun _ => none, fun _ => none⟩

/-- An answer kept beside others. -/
def keep {α : Type} (kept : Text → Option α) (key : Text) (answer : α) : Text → Option α :=
  fun other => if other = key then some answer else kept other

/-- Register a type.  If it is taken, all answers are forgotten. -/
def register (c : Catalogue) (t : TypeDef) (withHolder : Bool) : Except SchemaFault Catalogue :=
  (c.registry.register t withHolder).map ofRegistry

/-- The entity type that a question is about. -/
def definition (c : Catalogue) : Subject → Except SchemaFault EntityType
  | .registered name => c.registry.entity name
  | .brought definition => .ok definition

/-- The entity types that a question is about. -/
def definitions (c : Catalogue) : List Subject → Except SchemaFault (List EntityType)
  | [] => .ok []
  | s :: rest =>
    match c.definition s with
    | .error fault => .error fault
    | .ok first =>
      match definitions c rest with
      | .error fault => .error fault
      | .ok others => .ok (first :: others)

/-- The ancestors of a registered entity type. -/
def ancestorsOf (c : Catalogue) (e : EntityType) : Except SchemaFault (List Text) × Catalogue :=
  match c.keptAncestors e.key with
  | some names => (.ok names, c)
  | none =>
    match c.registry.ancestors e with
    | .error fault => (.error fault, c)
    | .ok names => (.ok names, { c with keptAncestors := keep c.keptAncestors e.key names })

/-- The name of an entity type and the names of all its supertypes. -/
def ancestors (c : Catalogue) : Subject → Except SchemaFault (List Text) × Catalogue
  | .brought definition => (c.registry.ancestors definition, c)
  | .registered name =>
    match c.registry.entity name with
    | .error fault => (.error fault, c)
    | .ok definition => c.ancestorsOf definition

/-- The type `sub` is an entity type, and `sup` is its name or that of one of its
supertypes. -/
def isSubtype (c : Catalogue) (sub sup : Text) : Except SchemaFault Bool × Catalogue :=
  match c.registry.entity? sub with
  | none => (.ok false, c)
  | some definition =>
    match c.ancestorsOf definition with
    | (.error fault, c) => (.error fault, c)
    | (.ok names, c) => (.ok (names.contains sup.upper), c)

/-- All attributes of an entity type, those of supertypes first. -/
def attributesOf (c : Catalogue) : Subject → Except SchemaFault (List Attribute) × Catalogue
  | .brought definition => (c.registry.attributesOf definition, c)
  | .registered name =>
    match c.registry.entity name with
    | .error fault => (.error fault, c)
    | .ok definition =>
      match c.keptAttributes definition.key with
      | some all => (.ok all, c)
      | none =>
        match c.registry.attributesOf definition with
        | .error fault => (.error fault, c)
        | .ok all =>
          (.ok all, { c with keptAttributes := keep c.keptAttributes definition.key all })

/-- The attributes that an entity type declares itself, with the redeclarations of
the given other entity types. -/
def ownAttributes (c : Catalogue) (s : Subject) (others : List Subject) :
    Except SchemaFault (List Attribute) :=
  match c.definitions (s :: others) with
  | .error fault => .error fault
  | .ok [] => .ok []
  | .ok (first :: rest) => c.registry.ownAttributes first rest

/-! ## Validation -/

/-- Check that the redeclared attributes of a registered entity type are those of
supertypes. -/
def checkOverrides (c : Catalogue) (e : EntityType) :
    List (Text × Text) → Except SchemaFault Unit × Catalogue
  | [] => (.ok (), c)
  | (owner, redeclared) :: rest =>
    match c.ancestorsOf e with
    | (.error fault, c) => (.error fault, c)
    | (.ok names, c) =>
      if names.contains owner.upper then checkOverrides c e rest
      else (.error (.notSupertype e.name owner redeclared), c)

/-- Check one registered type. -/
def checkRegistered (c : Catalogue) : TypeDef → Except SchemaFault Unit × Catalogue
  | .entity e =>
    match c.registry.linearization e with
    | .error fault => (.error fault, c)
    | .ok _ =>
      match c.registry.checkAttributes e.attributes with
      | .error fault => (.error fault, c)
      | .ok () => c.checkOverrides e e.overrides
  | t => (c.registry.checkRegistered t, c)

/-- Check types one after another. -/
def checkAll (c : Catalogue) : List (Text × TypeDef) → Except SchemaFault Unit × Catalogue
  | [] => (.ok (), c)
  | (_, t) :: rest =>
    match c.checkRegistered t with
    | (.error fault, c) => (.error fault, c)
    | (.ok (), c) => checkAll c rest

/-- Check all types of a registry.  The ancestors that are looked up on the way are
kept, also if there is a fault in the end. -/
def validate (c : Catalogue) : Except SchemaFault Unit × Catalogue :=
  c.checkAll c.registry.types

end Catalogue

end Part21
