import Part21.Schema.Registry

set_option autoImplicit false

/-!
# What a select offers

A select offers types by name, and a select among them offers its own options in
turn.  An entity can be reached through selects and defined types.  A value that
is no entity names the option it belongs to, and that option is sought among the
options themselves and those of selects among them.

Selects are in sections B.6 and B.7 of `SPEC_FULL.md`: `select_entities` and
`select_option`.
-/

namespace Part21

namespace Registry

/-- The names of the entities that one option stands for, and the select that it
stands for. -/
def optionTarget (r : Registry) (select option : Text) :
    Except SchemaFault (List Text × List SelectType) :=
  match r.find? option with
  | none => .error (.unknownOption select option)
  | some t =>
    match r.underlying t with
    | .error fault => .error fault
    | .ok (.entity definition) => .ok ([definition.key], [])
    | .ok (.select name options) => .ok ([], [⟨name, options⟩])
    | .ok _ => .ok ([], [])

/-- The same for all options. -/
def optionTargets (r : Registry) (select : Text) :
    List Text → Except SchemaFault (List Text × List SelectType)
  | [] => .ok ([], [])
  | option :: rest =>
    match r.optionTarget select option with
    | .error fault => .error fault
    | .ok (entities, selects) =>
      match optionTargets r select rest with
      | .error fault => .error fault
      | .ok (moreEntities, moreSelects) => .ok (entities ++ moreEntities, selects ++ moreSelects)

/-- The entities that the selects on the stack offer, added to those found.  The
last select among the options of one is looked at first. -/
def collectEntities (r : Registry) :
    Nat → List SelectType → List Text → List Text → Except SchemaFault (List Text)
  | 0, _, _, found => .ok found
  | _ + 1, [], _, found => .ok found
  | steps + 1, current :: stack, seen, found =>
    if seen.contains current.name.upper then collectEntities r steps stack seen found
    else
      match r.optionTargets current.name current.options with
      | .error fault => .error fault
      | .ok (entities, selects) =>
        collectEntities r steps (selects.reverse ++ stack) (seen ++ [current.name.upper])
          (found ++ entities.filter fun name => !found.contains name)

/-- Every option puts at most one select on the stack. -/
def selectSteps (r : Registry) (s : SelectType) : Nat :=
  r.total TypeDef.optionCount + s.options.length + 2

/-- The names of the entities that a select offers, in no particular order and
possibly more than once. -/
def selectEntities (r : Registry) (s : SelectType) : Except SchemaFault (List Text) :=
  r.collectEntities (r.selectSteps s) [s] [] []

/-- The first of the options that is the type sought, or else the selects among
them. -/
def seekOption (r : Registry) (key : Text) : List Text → TypeDef ⊕ List SelectType
  | [] => .inr []
  | option :: rest =>
    match r.find? option with
    | none => seekOption r key rest
    | some t =>
      if t.key = key ∧ t.isEntity = false then .inl t
      else
        match t, seekOption r key rest with
        | .select name options, .inr selects => .inr (⟨name, options⟩ :: selects)
        | _, answer => answer

/-- The type sought among the options of the selects on the stack. -/
def seekAmong (r : Registry) (key : Text) :
    Nat → List SelectType → List Text → Option TypeDef
  | 0, _, _ => none
  | _ + 1, [], _ => none
  | steps + 1, current :: stack, seen =>
    if seen.contains current.name.upper then seekAmong r key steps stack seen
    else
      match r.seekOption key current.options with
      | .inl t => some t
      | .inr selects =>
        seekAmong r key steps (selects.reverse ++ stack) (seen ++ [current.name.upper])

/-- The type with a keyword, other than an entity, that a select offers. -/
def selectOption (r : Registry) (s : SelectType) (keyword : Text) : Option TypeDef :=
  r.seekAmong keyword.upper (r.selectSteps s) [s] []

end Registry

end Part21
