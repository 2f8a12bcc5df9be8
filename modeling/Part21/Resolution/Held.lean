import Part21.Exchange.Parameter
import Part21.Resolution.Error
import Part21.Resolution.Settings
import Part21.Resolution.Value
import Part21.Schema.Hierarchy
import Part21.Schema.Selection

set_option autoImplicit false

/-!
# Held values

The parameters of a record are converted against the attributes of its entity
type before any reference is followed.  What comes out are held values: values
in which a reference is held together with the type that its target must have
and with the attribute it stands in.  So references may lead forward in the text
and in circles.

These are the first two steps of section 4.5 of `SPEC_FULL.md`, and `Holder.from_record` of
B.7: `hold_attribute` and `hold`.
-/

namespace Part21

/-- A converted parameter with its references still to be followed. -/
inductive Held where
  | value (value : Value)
  /-- an instance that has to be of the expected type -/
  | reference (id : Int) (expected : TypeDef) (place : Text)
  | typed (typeName : Text) (held : Held)
  | list (items : List Held)

/-- Where the way through references and defined types leads. -/
inductive Ground where
  /-- to a defined type of the name sought; the type it is defined as -/
  | wrapper (underlying : TypeDef)
  /-- to a type that is not defined as another one -/
  | type (type : TypeDef)

namespace Registry

/-- Go through defined types that are written out up to one of the name sought,
and on with `follow` at a reference. -/
def groundThrough (sought : Option Text) (follow : Text → Except Failure Ground) :
    TypeDef → Except Failure Ground
  | .ref name => follow name
  | .defined name underlying =>
    if sought = some name.upper then .ok (.wrapper underlying)
    else groundThrough sought follow underlying
  | t => .ok (.type t)

/-- The same with at most so many references followed. -/
def groundWithin (r : Registry) (sought : Option Text) : Nat → TypeDef → Except Failure Ground
  | 0, t => groundThrough sought (fun _ => .error .exhausted) t
  | references + 1, t =>
    groundThrough sought
      (fun name =>
        match r.find? name with
        | some next => groundWithin r sought references next
        | none => .error (.schema (.of (.undefined name))))
      t

/-- Where a type leads, if a defined type of the name sought ends the way.  Defined
types that lead in a circle exhaust the recursion. -/
def ground (r : Registry) (sought : Option Text) (t : TypeDef) : Except Failure Ground :=
  r.groundWithin sought r.referenceLimit t

end Registry

namespace Held

/-- A parameter is not what the attribute at a place takes. -/
def mismatch {α : Type} (place expected : Text) (p : Parameter) : Except Thrown α :=
  .error (.reason (.mismatch (some place) expected p.kindName))

/-- The value of a parameter of a simple type. -/
def simple (s : Settings) (place : Text) (type : SimpleType) (p : Parameter) :
    Except Thrown Value :=
  match type, p with
  | .integer, .integer n => .ok (.integer n)
  | .real, .real x => .ok (.real x)
  | .real, .integer n =>
    if s.acceptIntegerAsReal then
      match Binary64.ofInt? n with
      | some x => .ok (.real x)
      | none => .error (.failure .tooLarge)
    else mismatch place type.name p
  | .number, .integer n => .ok (.integer n)
  | .number, .real x => .ok (.real x)
  | .string, .string t => .ok (.text t)
  | .boolean, .enumeration item =>
    if item = "T" then .ok (.truth true)
    else if item = "F" then .ok (.truth false)
    else mismatch place type.name p
  | .logical, .enumeration item =>
    if item = "T" then .ok (.truth true)
    else if item = "F" then .ok (.truth false)
    else if item = "U" then .ok .unknown
    else mismatch place type.name p
  | .binary, .binary unusedBits digits => .ok (.binary unusedBits digits)
  | _, _ => mismatch place type.name p

/-- The items of an enumeration as messages show them. -/
def itemsText (items : List Text) : Text :=
  "[" ++ Text.join ", " (items.map Text.quoted) ++ "]"

/-- The value of a parameter of an enumeration. -/
def item (s : Settings) (place name : Text) (items : List Text) (p : Parameter) :
    Except Thrown Value :=
  match p with
  | .enumeration item =>
    match TypeDef.item? items item with
    | some declared => .ok (.text declared)
    | none =>
      if s.strictEnumerations then
        .error (.reason (.mismatch (some place) ("one of " ++ name ++ " " ++ itemsText items)
          ("." ++ item ++ ".")))
      else .ok (.text item.lower)
  | _ => mismatch place name p

/-- A parameter without parts of its own, or whose parts do not matter, against a
type that is not defined as another one. -/
def whole (s : Settings) (place : Text) (t : TypeDef) (p : Parameter) : Except Thrown Held :=
  match t with
  | .simple type => (simple s place type p).map .value
  | .enumeration name items => (item s place name items p).map .value
  | .entity definition =>
    match p with
    | .reference id => .ok (.reference id t place)
    | _ => mismatch place ("reference to " ++ definition.name) p
  | .select name _ =>
    match p with
    | .reference id => .ok (.reference id t place)
    | _ => mismatch place (name ++ " (reference or typed parameter)") p
  | _ => mismatch place t.describe p

/-- So many elements are within the bounds of an aggregate. -/
def withinBounds (lower : Int) (upper : Option Int) (count : Nat) : Bool :=
  decide (lower ≤ count) && (upper.all fun greatest => decide ((count : Int) ≤ greatest))

mutual

/-- A parameter converted against a type. -/
def ofParameter (r : Registry) (s : Settings) (place : Text) :
    TypeDef → Parameter → Except Thrown Held
  | t, .typed keyword inner =>
    match r.ground (some keyword.upper) t with
    | .error failure => .error (.failure failure)
    | .ok (.wrapper underlying) => ofParameter r s place underlying inner
    | .ok (.type (.select name options)) =>
      match r.selectOption ⟨name, options⟩ keyword with
      | none =>
        .error (.reason (.mismatch (some place) ("a type selectable by " ++ name) keyword))
      | some option => (ofParameter r s place option inner).map (.typed option.key)
    | .ok (.type t) => whole s place t (.typed keyword inner)
  | t, .list items =>
    match r.ground none t with
    | .error failure => .error (.failure failure)
    | .ok (.type (.aggregate name element kind lower upper)) =>
      if withinBounds lower upper items.length then
        (ofParameters r s place element items).map .list
      else
        .error (.reason (.mismatch (some place)
          (TypeDef.aggregate name element kind lower upper).describe
          ("aggregate of " ++ Text.ofNat items.length ++ " elements")))
    | .ok (.type t) => whole s place t (.list items)
    | .ok (.wrapper underlying) => whole s place underlying (.list items)
  | t, p =>
    match r.ground none t with
    | .error failure => .error (.failure failure)
    | .ok (.type t) => whole s place t p
    | .ok (.wrapper underlying) => whole s place underlying p

/-- Parameters converted against the element type of an aggregate. -/
def ofParameters (r : Registry) (s : Settings) (place : Text) (element : TypeDef) :
    List Parameter → Except Thrown (List Held)
  | [] => .ok []
  | p :: rest =>
    match ofParameter r s place element p with
    | .error thrown => .error thrown
    | .ok first =>
      match ofParameters r s place element rest with
      | .error thrown => .error thrown
      | .ok others => .ok (first :: others)

end

/-- The parameter of an attribute.  An attribute that is derived has to be left
out, and only an optional one may be unset. -/
def ofSlot (r : Registry) (s : Settings) (a : Attribute) (p : Parameter) : Except Thrown Held :=
  match p with
  | .inapplicable =>
    if a.derived then .ok (.value .nothing) else .error (.reason (.inapplicable a.name))
  | _ =>
    if a.derived then mismatch a.name "omitted (*) for derived attribute" p
    else
      match p with
      | .unset => if a.optional then .ok (.value .nothing) else .error (.reason (.unset a.name))
      | _ => ofParameter r s a.name a.type p

/-- The parameters of attributes, one for each. -/
def ofSlots (r : Registry) (s : Settings) :
    List Attribute → List Parameter → Except Thrown (List (Attribute × Held))
  | a :: attributes, p :: parameters =>
    match ofSlot r s a p with
    | .error thrown => .error thrown
    | .ok held =>
      match ofSlots r s attributes parameters with
      | .error thrown => .error thrown
      | .ok rest => .ok ((a, held) :: rest)
  | _, _ => .ok []

/-- The parameters of a record against the attributes of its type: there have to
be as many. -/
def ofGroup (r : Registry) (s : Settings) (typeName : Text) (attributes : List Attribute)
    (parameters : List Parameter) : Except Thrown (List (Attribute × Held)) :=
  if parameters.length = attributes.length then ofSlots r s attributes parameters
  else .error (.reason (.arity typeName attributes.length parameters.length))

/-! ## References -/

mutual

/-- The instances that a held value refers to, in the order of the text. -/
def references : Held → List Int
  | value _ => []
  | reference id _ _ => [id]
  | typed _ held => references held
  | list items => allReferences items

/-- The instances that held values refer to, in the order of the text. -/
def allReferences : List Held → List Int
  | [] => []
  | held :: rest => references held ++ allReferences rest

end

end Held

end Part21
