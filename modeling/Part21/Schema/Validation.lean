import Part21.Schema.Hierarchy
import Part21.Schema.Selection

set_option autoImplicit false

/-!
# Validation

A registry is valid if all names that its types mention are registered, if its
supertypes lead in no circle, and if no defined type is defined by itself.  The
types are looked at in the order of registration, and the first fault is the
answer.

Section B.6 of `SPEC_FULL.md`: `SchemaRegistry.validate`.
-/

namespace Part21

namespace Registry

/-- Go through defined types and aggregates that are written out, and on with
`follow` at a reference.  `seen` names the defined types on the way. -/
def checkWritten (follow : Text → List Text → Except SchemaFault Unit) :
    TypeDef → List Text → Except SchemaFault Unit
  | .ref name, seen => follow name seen
  | .defined name underlying, seen =>
    if seen.contains name.upper then .error (.selfReference name)
    else checkWritten follow underlying (seen ++ [name.upper])
  | .aggregate _ element _ _ _, seen => checkWritten follow element seen
  | _, _ => .ok ()

/-- Check a type, if at most so many references have to be followed. -/
def checkWithin (r : Registry) : Nat → TypeDef → List Text → Except SchemaFault Unit
  | 0, t, seen => checkWritten (fun _ _ => .error .bottomless) t seen
  | references + 1, t, seen =>
    checkWritten
      (fun name seen =>
        match r.find? name with
        | some next => checkWithin r references next seen
        | none => .error (.undefined name))
      t seen

/-- Check that the names a type mentions are registered and that no defined type
on the way is defined by itself.  A circle that holds a defined type comes round
to it within twice as many references as there are types. -/
def checkType (r : Registry) (t : TypeDef) : Except SchemaFault Unit :=
  r.checkWithin (2 * r.referenceLimit) t []

/-- Check the types of attributes. -/
def checkAttributes (r : Registry) : List Attribute → Except SchemaFault Unit
  | [] => .ok ()
  | a :: rest =>
    match r.checkType a.type with
    | .error fault => .error fault
    | .ok () => checkAttributes r rest

/-- Check that the redeclared attributes are those of supertypes. -/
def checkOverrides (r : Registry) (e : EntityType) :
    List (Text × Text) → Except SchemaFault Unit
  | [] => .ok ()
  | (owner, redeclared) :: rest =>
    match r.ancestors e with
    | .error fault => .error fault
    | .ok names =>
      if names.contains owner.upper then checkOverrides r e rest
      else .error (.notSupertype e.name owner redeclared)

/-- Check one registered type. -/
def checkRegistered (r : Registry) : TypeDef → Except SchemaFault Unit
  | .entity e =>
    match r.linearization e with
    | .error fault => .error fault
    | .ok _ =>
      match r.checkAttributes e.attributes with
      | .error fault => .error fault
      | .ok () => r.checkOverrides e e.overrides
  | .select name options =>
    match r.selectEntities ⟨name, options⟩ with
    | .error fault => .error fault
    | .ok _ => .ok ()
  | t => r.checkType t

/-- Check types one after another. -/
def checkAll (r : Registry) : List (Text × TypeDef) → Except SchemaFault Unit
  | [] => .ok ()
  | (_, t) :: rest =>
    match r.checkRegistered t with
    | .error fault => .error fault
    | .ok () => checkAll r rest

/-- Check all types of a registry. -/
def validate (r : Registry) : Except SchemaFault Unit := r.checkAll r.types

end Registry

end Part21
