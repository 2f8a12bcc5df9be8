import Part21.Resolution.Population
import Part21.Resolution.Progress

set_option autoImplicit false

/-!
# The basis of resolution

What resolution works with and does not change: the types, the ways in which
instances are built, the settings and the records.  From these follow how a
record is built and whether a record is of a type.

A resolution may bring an entity type of its own along.  That type stands in for
the keyword that is its name, if the registry has no entity type of that name.

Of sections 4.5 and B.7 of `SPEC_FULL.md`, these are the choice of the entity types of a
record (`EntityTable._construct`, `_construct_complex`, `_definition`) and the tests of
expected types (`_check_reference_type`, `_satisfies`, `records_of_type`).
-/

namespace Part21

/-- What resolution works with. -/
structure Basis where
  registry : Registry
  makers : Makers
  settings : Settings
  population : Population

namespace Basis

/-- The entity type of a keyword with the way its instances are built. -/
def blueprint (b : Basis) (brought : Option Blueprint) (keyword : Text) :
    Except Thrown Blueprint :=
  match b.registry.entity? keyword with
  | some definition => .ok ⟨definition, b.makers keyword.upper⟩
  | none =>
    match brought with
    | some own =>
      if own.definition.key = keyword.upper then .ok own
      else .error (.reason (.unknownType keyword))
    | none => .error (.reason (.unknownType keyword))

/-- The entity types of groups. -/
def partTypes (b : Basis) (brought : Option Blueprint) :
    List Group → Except Thrown (List (EntityType × Group))
  | [] => .ok []
  | group :: rest =>
    match b.blueprint brought group.keyword with
    | .error thrown => .error thrown
    | .ok own =>
      match partTypes b brought rest with
      | .error thrown => .error thrown
      | .ok others => .ok ((own.definition, group) :: others)

/-- The building of a record. -/
def build (b : Basis) (brought : Option Blueprint) (site : Site) (r : Record) :
    Build Instance :=
  match r.body with
  | .simple group =>
    match b.blueprint brought group.keyword with
    | .error thrown => .throw thrown
    | .ok own => own.build site group.parameters
  | .complex first others _ =>
    match b.partTypes brought (first :: others) with
    | .error thrown => .throw thrown
    | .ok parts => site.buildComplex parts

/-! ## Types of records -/

/-- A keyword names an entity type, or one of its subtypes. -/
def keywordIs (b : Basis) (brought : Option Blueprint) (keyword name : Text) :
    Except SchemaFault Bool :=
  if keyword.upper = name then .ok true
  else
    match b.registry.isSubtype keyword name with
    | .error fault => .error fault
    | .ok true => .ok true
    | .ok false =>
      match brought with
      | none => .ok false
      | some own =>
        if keyword.upper = own.definition.key then
          (b.registry.ancestors own.definition).map fun names => names.contains name
        else .ok false

/-- The first test that does not fail to hold decides. -/
def anyOf {α : Type} (test : α → Except SchemaFault Bool) : List α → Except SchemaFault Bool
  | [] => .ok false
  | a :: rest =>
    match test a with
    | .error fault => .error fault
    | .ok true => .ok true
    | .ok false => anyOf test rest

/-- Some keyword of a record names one of the entity types, or one of their
subtypes. -/
def recordIs (b : Basis) (brought : Option Blueprint) (r : Record) (names : List Text) :
    Except SchemaFault Bool :=
  anyOf (fun keyword => anyOf (b.keywordIs brought keyword) names) r.keywords

/-- The names of the entity types that a reference to an expected type may lead
to. -/
def allowed (b : Basis) (expected : TypeDef) : Except SchemaFault (List Text) :=
  match b.registry.resolve expected with
  | .error fault => .error fault
  | .ok (.select name options) => b.registry.selectEntities ⟨name, options⟩
  | .ok t => .ok [t.key]

/-- The target of a reference has to be of the expected type. -/
def checkTarget (b : Basis) (brought : Option Blueprint) (id : Int) (r : Record)
    (expected : TypeDef) (place : Text) : Except Thrown Unit :=
  match b.allowed expected with
  | .error fault => .error (.schema fault)
  | .ok names =>
    match b.recordIs brought r names with
    | .error fault => .error (.schema fault)
    | .ok true => .ok ()
    | .ok false =>
      .error (.reason (.mismatch (some place)
        ("reference to " ++ Text.join " or " (Text.sorted names.eraseDups))
        ("#" ++ Text.ofInt id ++ " " ++ r.keywordText)))

/-- A keyword of a record is the one sought or, with subtypes, names the entity
type of that name or one of its subtypes. -/
def keywordMatches (b : Basis) (sought : Text) (withSubtypes : Bool) (keyword : Text) :
    Except SchemaFault Bool :=
  if keyword = sought.upper then .ok true
  else if withSubtypes then b.registry.isSubtype keyword sought
  else .ok false

/-- Those of the records that have a keyword of a type. -/
def selectRecords (b : Basis) (sought : Text) (withSubtypes : Bool) :
    List Record → Except SchemaFault (List Record)
  | [] => .ok []
  | r :: rest =>
    match anyOf (b.keywordMatches sought withSubtypes) r.keywords with
    | .error fault => .error fault
    | .ok chosen =>
      match selectRecords b sought withSubtypes rest with
      | .error fault => .error fault
      | .ok others => .ok (if chosen then r :: others else others)

/-- The records of a type, with or without those of its subtypes. -/
def recordsOfType (b : Basis) (sought : Text) (withSubtypes : Bool) :
    Except SchemaFault (List Record) :=
  b.selectRecords sought withSubtypes b.population.records

end Basis

end Part21
