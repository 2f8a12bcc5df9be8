import Part21.Resolution.Pass

set_option autoImplicit false

/-!
# Entity tables

A table is filled with records and then asked for instances.  Once it has been
asked for one, no further record is taken.  Each instance is built at most once,
when it is first needed.

Sections 4.4 and B.8 of `SPEC_FULL.md`: the `add`, `resolve` and `resolve_all` of an
`EntityTable`, the last with one worker.
-/

namespace Part21

/-- Records with the instances resolved so far. -/
structure Table where
  basis : Basis
  isSealed : Bool
  progress : Progress

/-- Why a record is not added to a table. -/
inductive TableFault where
  /-- resolution has started -/
  | sealed
  | population (fault : PopulationFault)
  deriving DecidableEq

namespace TableFault

/-- The text of the fault. -/
def message : TableFault → Text
  | sealed => "EntityTable is sealed once resolution has started"
  | population fault => fault.message

end TableFault

/-- What an instance that is asked for has to be. -/
inductive Expected where
  /-- of the type of a name -/
  | typeName (name : Text)
  /-- of a type that is brought along -/
  | blueprint (own : Blueprint)

namespace Expected

/-- The name of the expected type. -/
def name : Expected → Text
  | typeName name => name
  | blueprint own => own.definition.name

/-- The type brought along. -/
def brought? : Expected → Option Blueprint
  | typeName _ => none
  | blueprint own => some own

end Expected

/-- The outcomes for all records of a table: the instances resolved and the errors
of the others, by name. -/
structure Report where
  entities : List (Int × Instance)
  failures : List (Int × ResolutionError)

namespace Report

/-- Every instance was resolved. -/
def isOk (r : Report) : Bool := r.failures.isEmpty

end Report

namespace Table

/-- A table without records. -/
def empty (registry : Registry) (makers : Makers) (settings : Settings) : Table :=
  ⟨⟨registry, makers, settings, .empty⟩, false, .initial⟩

/-! ## Filling -/

/-- Add a record. -/
def add (t : Table) (r : Record) : Except TableFault Table :=
  if t.isSealed then .error .sealed
  else
    match t.basis.population.add r with
    | .error fault => .error (.population fault)
    | .ok population => .ok { t with basis := { t.basis with population := population } }

/-- Add records up to the first that is not taken. -/
def extend (t : Table) : List Record → Except TableFault Unit × Table
  | [] => (.ok (), t)
  | r :: rest =>
    match t.add r with
    | .error fault => (.error fault, t)
    | .ok t => extend t rest

/-- Add the records of sections, one section after another, up to the first record
that is not taken. -/
def extendEach (t : Table) : List DataSection → Except TableFault Unit × Table
  | [] => (.ok (), t)
  | s :: rest =>
    match t.extend s.records with
    | (.error fault, t) => (.error fault, t)
    | (.ok (), t) => extendEach t rest

/-- Report an event. -/
def report (t : Table) (event : Event) : Table :=
  { t with progress := t.progress.report event }

/-- Report that a table was filled, if all records were taken. -/
def filled (filling : Except TableFault Unit × Table) (sections : Option Nat) :
    Except TableFault Table :=
  match filling with
  | (.error fault, _) => .error fault
  | (.ok (), t) => .ok (t.report (.tableBuilt t.basis.population.size sections))

/-- Fill a table with the records of a section. -/
def ofSection (t : Table) (s : DataSection) : Except TableFault Table :=
  filled (t.extend s.records) none

/-- Fill a table with the records of all sections of an exchange structure. -/
def ofExchange (t : Table) (f : ExchangeFile) : Except TableFault Table :=
  filled (t.extendEach f.sections) (some f.sections.length)

/-! ## Types -/

/-- Register another type, with a factory for its instances if it is an entity
type that has one. -/
def register (t : Table) (type : TypeDef) (factory : Option Factory) :
    Except SchemaFault Table :=
  match t.basis.registry.register type false with
  | .error fault => .error fault
  | .ok registry =>
    let makers := t.basis.makers.change type.name ⟨none, factory⟩
    .ok { t with basis := { t.basis with registry := registry, makers := makers } }

/-- From now on, let a factory make the instances of an entity type. -/
def bind (t : Table) (name : Text) (factory : Factory) : Except SchemaFault Table :=
  match t.basis.registry.entity name with
  | .error fault => .error fault
  | .ok _ =>
    .ok { t with basis := { t.basis with makers := t.basis.makers.withFactory name factory } }

/-- From now on, let a holder build the instances of an entity type. -/
def bindHolder (t : Table) (name : Text) (holder : Holder) : Except SchemaFault Table :=
  match t.basis.registry.entity name with
  | .error fault => .error fault
  | .ok _ =>
    .ok { t with basis := { t.basis with makers := t.basis.makers.withHolder name holder } }

/-! ## Events -/

/-- The events reported since they were last taken, and the table without them. -/
def takeEvents (t : Table) : List Event × Table :=
  (t.progress.journal, { t with progress := { t.progress with journal := [] } })

/-! ## Looking up -/

/-- The record of a name. -/
def lookup (t : Table) (id : Int) : Except Thrown Record :=
  match t.basis.population.find? id with
  | some r => .ok r
  | none => .error (.reason (.unresolved id))

/-- The standing of an instance. -/
def standing (t : Table) (id : Int) : Standing := t.progress.standing id

/-! ## Resolving -/

/-- The instance that was resolved has to be what is expected. -/
def checkExpected (t : Table) (id : Int) (expected : Expected) : Except Thrown Unit :=
  match t.basis.population.find? id with
  | none => .error (.reason (.unresolved id))
  | some r =>
    let name := expected.name.upper
    match t.basis.recordIs expected.brought? r [name] with
    | .error fault => .error (.schema fault)
    | .ok true => .ok ()
    | .ok false =>
      .error (.resolution
        ⟨.mismatch none name r.keywordText, ⟨some id, [id], ⟨r.offset, r.line, none⟩⟩, [], none⟩)

/-- The instance of a name. -/
def resolve (t : Table) (id : Int) (expected : Option Expected) :
    Except Thrown Instance × Table :=
  let (outcome, progress) := t.basis.resolve (expected.bind Expected.brought?) id t.progress
  let t : Table := { t with isSealed := true, progress := progress }
  match outcome, expected with
  | .ok value, some expected =>
    match t.checkExpected id expected with
    | .error thrown => (.error thrown, t)
    | .ok () => (.ok value, t)
  | outcome, _ => (outcome, t)

/-- Resolve the instances of the given names, added to a report.  Only what is no
resolution error ends it early. -/
def resolveOnto (t : Table) (done : Report) : List Int → Except Thrown Report × Table
  | [] => (.ok done, t)
  | id :: rest =>
    match t.resolve id none with
    | (.ok value, t) =>
      resolveOnto t { done with entities := done.entities ++ [(id, value)] } rest
    | (.error (.resolution error), t) =>
      resolveOnto t { done with failures := done.failures ++ [(id, error)] } rest
    | (.error thrown, t) => (.error thrown, t)

/-- The event of a failure. -/
def failureEvent (failure : Int × ResolutionError) : Event :=
  .resolutionFailed failure.1 failure.2.reason.kind failure.2.chain failure.2.reason.message

/-- Resolve all instances, and report those that fail. -/
def resolveAll (t : Table) : Except Thrown Report × Table :=
  match t.resolveOnto ⟨[], []⟩ t.basis.population.ids with
  | (.error thrown, t) => (.error thrown, t)
  | (.ok all, t) => (.ok all, all.failures.foldl (fun t failure => t.report (failureEvent failure)) t)

end Table

end Part21
