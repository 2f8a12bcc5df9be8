import Part21.Schema.Registry

set_option autoImplicit false

/-!
# Supertypes and attributes

An entity type inherits the attributes of its supertypes.  Its instances carry
the values in the order of its linearization: supertypes before subtypes, those
of one entity type in the order of their declaration, and each of them once.

A supertype that is not registered is a fault, and so is one that is no entity
type.  Supertypes that lead in a circle have no linearization.

Section B.6 of `SPEC_FULL.md`: `attributes_of`, `own_attributes`, `ancestors` and
`is_subtype`.
-/

namespace Part21

namespace Registry

/-- The entity type that `owner` names as a supertype. -/
def supertype (r : Registry) (owner : EntityType) (name : Text) :
    Except SchemaFault EntityType :=
  if r.contains name then r.entity name else .error (.unknownSupertype owner.name name)

/-- The entity types that `owner` names as supertypes. -/
def supertypes (r : Registry) (owner : EntityType) :
    List Text → Except SchemaFault (List EntityType)
  | [] => .ok []
  | name :: rest =>
    match r.supertype owner name with
    | .error fault => .error fault
    | .ok first =>
      match supertypes r owner rest with
      | .error fault => .error fault
      | .ok others => .ok (first :: others)

/-! ## Ancestors -/

/-- The names of the entity types on the stack and of all their supertypes,
added to those already seen.  The last supertype of an entity type is looked at
first. -/
def collectAncestors (r : Registry) :
    Nat → List EntityType → List Text → Except SchemaFault (List Text)
  | 0, _, seen => .ok seen
  | _ + 1, [], seen => .ok seen
  | steps + 1, current :: stack, seen =>
    if seen.contains current.key then collectAncestors r steps stack seen
    else
      match r.supertypes current current.supertypes with
      | .error fault => .error fault
      | .ok above => collectAncestors r steps (above.reverse ++ stack) (seen ++ [current.key])

/-- Every supertype that is named puts at most one entity type on the stack. -/
def ancestorSteps (r : Registry) (e : EntityType) : Nat :=
  r.total TypeDef.supertypeCount + e.supertypes.length + 2

/-- The name of an entity type and the names of all its supertypes. -/
def ancestors (r : Registry) (e : EntityType) : Except SchemaFault (List Text) :=
  r.collectAncestors (r.ancestorSteps e) [e] []

/-- The type `sub` is an entity type, and `sup` is its name or that of one of its
supertypes. -/
def isSubtype (r : Registry) (sub sup : Text) : Except SchemaFault Bool :=
  match r.entity? sub with
  | none => .ok false
  | some definition =>
    match r.ancestors definition with
    | .error fault => .error fault
    | .ok names => .ok (names.contains sup.upper)

/-! ## Linearization -/

/-- Do something for each supertype that `owner` names, one after another. -/
def forSupertypes (r : Registry) (owner : EntityType)
    (act : EntityType → List EntityType → Except SchemaFault (List EntityType)) :
    List Text → List EntityType → Except SchemaFault (List EntityType)
  | [], done => .ok done
  | name :: rest, done =>
    match r.supertype owner name with
    | .error fault => .error fault
    | .ok above =>
      match act above done with
      | .error fault => .error fault
      | .ok more => forSupertypes r owner act rest more

/-- Put an entity type behind its supertypes.  `path` names the entity types that
it is a supertype of on the way here, and `done` is what has been listed. -/
def linearizeOnto (r : Registry) :
    Nat → List Text → EntityType → List EntityType → Except SchemaFault (List EntityType)
  | 0, _, current, _ => .error (.cyclicSupertypes current.name)
  | depth + 1, path, current, done =>
    if path.contains current.key then .error (.cyclicSupertypes current.name)
    else if (done.map EntityType.key).contains current.key then .ok done
    else
      match
        r.forSupertypes current (linearizeOnto r depth (path ++ [current.key]))
          current.supertypes done with
      | .error fault => .error fault
      | .ok above => .ok (above ++ [current])

/-- An entity type behind all its supertypes.  A way up that is longer than the
registry has types leads in a circle. -/
def linearization (r : Registry) (e : EntityType) : Except SchemaFault (List EntityType) :=
  r.linearizeOnto (r.types.length + 2) [] e []

/-- The linearizations of several entity types, one after another. -/
def linearizations (r : Registry) : List EntityType → Except SchemaFault (List EntityType)
  | [] => .ok []
  | e :: rest =>
    match r.linearization e with
    | .error fault => .error fault
    | .ok first =>
      match linearizations r rest with
      | .error fault => .error fault
      | .ok others => .ok (first ++ others)

/-! ## Attributes -/

/-- Some of the entity types redeclares the attribute of `owner` as derived. -/
def redeclared (among : List EntityType) (owner : EntityType) (a : Attribute) : Bool :=
  among.any fun e =>
    e.overrides.any fun pair =>
      decide (pair.1.upper = owner.key) && decide (pair.2.lower = a.name.lower)

/-- The attributes that an entity type declares itself, as derived where one of
the given entity types redeclares them. -/
def declaredAttributes (among : List EntityType) (e : EntityType) : List Attribute :=
  e.attributes.map fun a => { a with derived := a.derived || redeclared among e a }

/-- All attributes of an entity type, those of supertypes first. -/
def attributesOf (r : Registry) (e : EntityType) : Except SchemaFault (List Attribute) :=
  match r.linearization e with
  | .error fault => .error fault
  | .ok chain => .ok (chain.flatMap (declaredAttributes chain))

/-- The attributes that an entity type declares itself, with the redeclarations
of its supertypes, of the given other entity types and of their supertypes. -/
def ownAttributes (r : Registry) (e : EntityType) (others : List EntityType) :
    Except SchemaFault (List Attribute) :=
  match r.linearizations (e :: others) with
  | .error fault => .error fault
  | .ok chains => .ok (declaredAttributes chains e)

end Registry

end Part21
