import Part21.Exchange.Record
import Part21.Resolution.Held

set_option autoImplicit false

/-!
# Buildings

How an instance is built is a program that, between steps of its own, asks for
other instances: it follows a reference, or it starts a resolution of its own.
What it asks for is answered by whoever runs it, so the program need not know
what is already built or how deep references go.  The beginnings and the ends of the
attempts at building instances are the turns that resolution takes, and a
building may look at those before it.

The program of an entity type is its holder.  The default one converts the
parameters, then follows the references in them, and puts the values under the
names of the attributes.  A factory makes something else of these fields.  It is
a program as well: through the references among the fields it gets at the table.

Sections 4.5 and B.7 of `SPEC_FULL.md`: `Holder.into_entity`, `release`, and the factories
that `SchemaRegistry.bind` sets.
-/

namespace Part21

/-! ## Turns -/

/-- How an attempt at building an instance ended. -/
inductive Ending where
  | completed (value : Instance)
  | failed (error : ResolutionError)
  /-- references went too deep -/
  | tooDeep (error : ResolutionError)
  | calledOff (message : Text)

namespace Ending

/-- What is answered to those who wait for the instance. -/
def outcome : Ending → Except Thrown Instance
  | completed value => .ok value
  | failed error => .error (.resolution error)
  | tooDeep error => .error (.resolution error)
  | calledOff message => .error (.interrupt message)

/-- The ending by an error. -/
def ofError (error : ResolutionError) : Ending :=
  if error.reason.isTooDeep then tooDeep error else failed error

end Ending

/-- A turn in the attempts at building instances. -/
inductive Turn where
  | begun (id : Int)
  | ended (id : Int) (ending : Ending)
  /-- a reference was not followed, as the path was at its limit -/
  | refused (referrer id : Int)

namespace Turn

/-- The beginning of an attempt at building an instance. -/
def isBeginOf (id : Int) : Turn → Bool
  | begun other => decide (other = id)
  | _ => false

end Turn

/-! ## Programs -/

/-- The building of something. -/
inductive Build (α : Type) where
  | done (outcome : Except Thrown α)
  /-- follow a reference from an attribute to an instance of an expected type -/
  | visit (id : Int) (expected : TypeDef) (place : Text) (next : Except Thrown Unit → Build α)
  /-- resolve an instance as if it were asked for from outside -/
  | resolve (id : Int) (next : Except Thrown Instance → Build α)

namespace Build

variable {α β σ : Type}

/-- Something that needs no building. -/
def pure (value : α) : Build α := .done (.ok value)

/-- A building that fails at once. -/
def throw (thrown : Thrown) : Build α := .done (.error thrown)

/-- A building of which the outcome is known. -/
def ofExcept (outcome : Except Thrown α) : Build α := .done outcome

/-- One building after another, which it does not come to if the first fails. -/
def bind (first : Build α) (second : α → Build β) : Build β :=
  match first with
  | done (.ok value) => second value
  | done (.error thrown) => done (.error thrown)
  | visit id expected place next => visit id expected place fun answer => bind (next answer) second
  | resolve id next => resolve id fun answer => bind (next answer) second

instance : Monad Build where
  pure := Build.pure
  bind := Build.bind

/-- Follow a reference. -/
def follow (id : Int) (expected : TypeDef) (place : Text) : Build Unit :=
  visit id expected place .done

/-- Resolve an instance. -/
def resolved (id : Int) : Build Instance := resolve id .done

/-- Run a building.  `visited` and `resolved` answer what it asks for, and what
they do changes a state. -/
def run (visited : Int → TypeDef → Text → σ → Except Thrown Unit × σ)
    (resolved : Int → σ → Except Thrown Instance × σ) :
    Build α → σ → Except Thrown α × σ
  | done outcome, s => (outcome, s)
  | visit id expected place next, s =>
    let (answer, s) := visited id expected place s
    run visited resolved (next answer) s
  | resolve id next, s =>
    let (answer, s) := resolved id s
    run visited resolved (next answer) s

end Build

/-! ## Releasing held values -/

namespace Held

mutual

/-- The value of a held value, its references followed in the order of the text. -/
def release : Held → Build Value
  | .value v => return v
  | .reference id expected place => do
    Build.follow id expected place
    return .reference id
  | .typed typeName held => do
    let v ← release held
    return .typed typeName v
  | .list items => do
    let values ← releaseAll items
    return .list values

/-- The values of held values, one after another. -/
def releaseAll : List Held → Build (List Value)
  | [] => return []
  | held :: rest => do
    let value ← release held
    let values ← releaseAll rest
    return value :: values

end

/-- The values of attributes under their names, added to those there are.  A
derived attribute has none. -/
def releaseOnto (fields : Fields Value) : List (Attribute × Held) → Build (Fields Value)
  | [] => return fields
  | (a, held) :: rest =>
    if a.derived then releaseOnto fields rest
    else do
      let value ← release held
      releaseOnto (fields.assign a.name value) rest

end Held

/-! ## Holders -/

/-- Where an instance is built: its name, how many instances are under construction because of
each other with it as the last, the turns of resolution so far, and what the conversion of
parameters depends on. -/
structure Site where
  id : Int
  depth : Nat
  history : List Turn
  registry : Registry
  settings : Settings

/-- Makes an instance of the fields of an entity.  No two buildings begin behind
the same turns, so a factory may do something else each time. -/
abbrev Factory := Site → Fields Value → Build Instance

/-- How instances of an entity type are built from their parameters, if the type
has the given factory.  A holder may do something else each time, too. -/
abbrev Holder := Site → EntityType → Option Factory → List Parameter → Build Instance

namespace Site

/-- How often the building of the instance was begun before. -/
def earlierAttempts (site : Site) : Nat := site.history.countP (Turn.isBeginOf site.id)

/-- The parameters of an instance against all attributes of its type. -/
def hold (site : Site) (e : EntityType) (parameters : List Parameter) :
    Except Thrown (List (Attribute × Held)) :=
  match site.registry.attributesOf e with
  | .error fault => .error (.schema fault)
  | .ok attributes => Held.ofGroup site.registry site.settings e.name attributes parameters

/-- The parameters of a part of a complex instance against the attributes that its
type declares itself.  `others` are the types of the other parts. -/
def holdPart (site : Site) (e : EntityType) (others : List EntityType)
    (parameters : List Parameter) : Except Thrown (List (Attribute × Held)) :=
  match site.registry.ownAttributes e others with
  | .error fault => .error (.schema fault)
  | .ok attributes => Held.ofGroup site.registry site.settings e.name attributes parameters

/-- The entity of a type with the given fields. -/
def entity (site : Site) (e : EntityType) (fields : Fields Value) : Except Thrown Entity :=
  match site.registry.ancestors e with
  | .error fault => .error (.schema fault)
  | .ok names => .ok ⟨e.key, site.id, names, fields⟩

/-- The entity of a type with the given held values. -/
def release (site : Site) (e : EntityType) (slots : List (Attribute × Held)) : Build Entity := do
  let fields ← Held.releaseOnto [] slots
  Build.ofExcept (site.entity e fields)

end Site

namespace Holder

/-- Convert the parameters, follow their references, and make an entity of the
values, or what the factory makes of them. -/
def default : Holder := fun site e factory parameters => do
  let slots ← Build.ofExcept (site.hold e parameters)
  match factory with
  | none =>
    let entity ← site.release e slots
    return .entity entity
  | some make =>
    let fields ← Held.releaseOnto [] slots
    make site fields

end Holder

/-- How instances of an entity type are built where not by default. -/
structure Maker where
  holder : Option Holder
  factory : Option Factory

namespace Maker

/-- Everything by default. -/
def default : Maker := ⟨none, none⟩

end Maker

/-- The makers of all entity types, by the names of the types in capitals. -/
abbrev Makers := Text → Maker

namespace Makers

/-- Everything by default. -/
def initial : Makers := fun _ => .default

/-- Other makers for the type of a name, letter case ignored. -/
def change (m : Makers) (name : Text) (maker : Maker) : Makers :=
  fun key => if key = name.upper then maker else m key

/-- Let a factory make the instances of the type of a name. -/
def withFactory (m : Makers) (name : Text) (factory : Factory) : Makers :=
  m.change name { m name.upper with factory := some factory }

/-- Let a holder build the instances of the type of a name. -/
def withHolder (m : Makers) (name : Text) (holder : Holder) : Makers :=
  m.change name { m name.upper with holder := some holder }

end Makers

/-- An entity type with the way its instances are built. -/
structure Blueprint where
  definition : EntityType
  maker : Maker

namespace Blueprint

/-- The building of a simple instance. -/
def build (b : Blueprint) (site : Site) (parameters : List Parameter) : Build Instance :=
  (b.maker.holder.getD Holder.default) site b.definition b.maker.factory parameters

end Blueprint

/-! ## Complex instances -/

namespace Site

/-- The parameters of all parts, part by part.  Types of the same name count as
one type. -/
def holdParts (site : Site) (all : List EntityType) :
    List (EntityType × Group) → Except Thrown (List (EntityType × List (Attribute × Held)))
  | [] => .ok []
  | (e, group) :: rest =>
    match site.holdPart e (all.filter fun other => other.key ≠ e.key) group.parameters with
    | .error thrown => .error thrown
    | .ok slots =>
      match holdParts site all rest with
      | .error thrown => .error thrown
      | .ok others => .ok ((e, slots) :: others)

/-- The entities of all parts under the names of their types, added to those there
are. -/
def releaseParts (site : Site) (parts : Fields Entity) :
    List (EntityType × List (Attribute × Held)) → Build (Fields Entity)
  | [] => return parts
  | (e, slots) :: rest => do
    let entity ← site.release e slots
    releaseParts site (parts.assign e.key entity) rest

/-- The building of a complex instance.  Parts are entities always: neither
holders nor factories have a say in them. -/
def buildComplex (site : Site) (parts : List (EntityType × Group)) : Build Instance := do
  let held ← Build.ofExcept (site.holdParts (parts.map Prod.fst) parts)
  let entities ← site.releaseParts [] held
  return .complex ⟨site.id, entities⟩

end Site

end Part21
