import Part21.Schema.TypeDef
import Part21.Schema.Fault

set_option autoImplicit false

/-!
# Registries

A registry holds the types of one schema under their names in capitals, in the
order in which they were registered.  No two of them have the same name.  Every
registry starts with the simple types.

Section B.6 of `SPEC_FULL.md`: `register`, `get`, `entity`, `resolve_type` and `underlying`
of a `SchemaRegistry`.
-/

namespace Part21

/-- The types of a schema. -/
structure Registry where
  name : Text
  types : List (Text × TypeDef)
  distinct : (types.map Prod.fst).Nodup
  keyed : ∀ entry ∈ types, entry.1 = entry.2.key

namespace Registry

/-- The registry of a schema that has declared nothing yet. -/
def initial (name : Text) : Registry :=
  ⟨name, SimpleType.all.map fun type => (type.name, .simple type), by decide, by decide⟩

/-- The type that is registered under a name, letter case ignored. -/
def find? (r : Registry) (name : Text) : Option TypeDef :=
  (r.types.find? fun entry => entry.1 = name.upper).map Prod.snd

/-- A type is registered under the name. -/
def contains (r : Registry) (name : Text) : Bool := (r.find? name).isSome

theorem not_mem_of_contains_eq_false {r : Registry} {name : Text} (h : r.contains name = false) :
    name.upper ∉ r.types.map Prod.fst := by
  simp only [contains, find?, Option.isSome_map, List.find?_isSome, Bool.eq_false_iff,
    ne_eq, decide_eq_true_eq, not_exists, not_and] at h
  simp only [List.mem_map, not_exists, not_and]
  exact h

/-- Register a type under its name.  `withHolder` says that a holder was given
for it, which only entity types can have. -/
def register (r : Registry) (t : TypeDef) (withHolder : Bool) : Except SchemaFault Registry :=
  match t with
  | .ref name => .error (.bareReference name)
  | _ =>
    if taken : r.contains t.name then .error (.duplicate t.name)
    else if withHolder && !t.isEntity then .error (.holderOfOther t.name)
    else
      .ok
        { name := r.name
          types := r.types ++ [(t.key, t)]
          distinct := by
            have fresh := not_mem_of_contains_eq_false (Bool.eq_false_iff.mpr taken)
            simp only [List.map_append, List.map_cons, List.map_nil, List.nodup_append,
              List.nodup_cons, List.not_mem_nil, not_false_eq_true, List.nodup_nil, and_self,
              List.mem_cons, or_false, forall_eq, true_and, ne_eq]
            exact ⟨r.distinct, fun a member (same : a = t.name.upper) => fresh (same ▸ member)⟩
          keyed := by
            intro entry member
            rcases List.mem_append.mp member with old | new
            · exact r.keyed entry old
            · simp only [List.mem_cons, List.not_mem_nil, or_false] at new
              subst new
              rfl }

/-- The type of a name. -/
def get (r : Registry) (name : Text) : Except SchemaFault TypeDef :=
  match r.find? name with
  | some t => .ok t
  | none => .error (.notFound name)

/-- The entity type of a name. -/
def entity (r : Registry) (name : Text) : Except SchemaFault EntityType :=
  match r.get name with
  | .error fault => .error fault
  | .ok (.entity definition) => .ok definition
  | .ok _ => .error (.notEntity name)

/-- The entity type of a name, if there is one. -/
def entity? (r : Registry) (name : Text) : Option EntityType :=
  (r.find? name).bind TypeDef.entity?

/-- The type that a reference stands for; other types stand for themselves. -/
def resolve (r : Registry) : TypeDef → Except SchemaFault TypeDef
  | .ref name =>
    match r.find? name with
    | some t => .ok t
    | none => .error (.undefined name)
  | t => .ok t

/-- The names of all types, in the order of registration. -/
def typeNames (r : Registry) : List Text := r.types.map Prod.fst

/-- The names of all entity types, in the order of registration. -/
def entityNames (r : Registry) : List Text :=
  (r.types.filter fun entry => entry.2.isEntity).map Prod.fst

/-- The sum of a measure over all types. -/
def total (r : Registry) (measure : TypeDef → Nat) : Nat :=
  r.types.foldr (fun entry sum => measure entry.2 + sum) 0

/-! ## What defined types stand for -/

/-- Go through defined types that are written out, and on with `follow` at a
reference. -/
def throughDefined (follow : Text → Except SchemaFault TypeDef) :
    TypeDef → Except SchemaFault TypeDef
  | .ref name => follow name
  | .defined _ underlying => throughDefined follow underlying
  | t => .ok t

/-- The type behind references and defined types, if at most so many references
have to be followed. -/
def underlyingWithin (r : Registry) : Nat → TypeDef → Except SchemaFault TypeDef
  | 0, t => throughDefined (fun _ => .error .endless) t
  | references + 1, t =>
    throughDefined
      (fun name =>
        match r.find? name with
        | some next => underlyingWithin r references next
        | none => .error (.undefined name))
      t

/-- More references than this lead in a circle. -/
def referenceLimit (r : Registry) : Nat := r.types.length + 1

/-- The type behind references and defined types. -/
def underlying (r : Registry) (t : TypeDef) : Except SchemaFault TypeDef :=
  r.underlyingWithin r.referenceLimit t

end Registry

end Part21
