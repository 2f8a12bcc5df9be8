import Part21.Resolution.Build
import Part21.Schema.Catalogue

set_option autoImplicit false

/-!
# Inventories

An inventory is all that a schema offers: a catalogue of its types, and the makers
of instances of its entity types.  Calls are put to it one after another.  Each has
a reply, and leaves the inventory that the next call finds.

Section B.6 of `SPEC_FULL.md`: `register`, `bind` and the questions of a `SchemaRegistry`.
-/

namespace Part21

/-- The types of a schema with the makers of their instances. -/
structure Inventory where
  catalogue : Catalogue
  makers : Makers

namespace Inventory

/-- What an inventory is asked or told. -/
inductive Call where
  /-- register a type, which has a maker of its own; another holder may be given -/
  | register (type : TypeDef) (own : Maker) (holder : Option Holder)
  /-- let a factory make the instances of an entity type -/
  | bind (name : Text) (factory : Factory)
  | attributesOf (s : Subject)
  | ownAttributes (s : Subject) (others : List Subject)
  | ancestors (s : Subject)
  | isSubtype (sub sup : Text)
  | validate

/-- What a call answers. -/
inductive Reply where
  | done
  | attributes (all : List Attribute)
  | names (all : List Text)
  | truth (b : Bool)

/-- The inventory of a registry that has not been asked anything. -/
def ofRegistry (r : Registry) (makers : Makers) : Inventory := ⟨.ofRegistry r, makers⟩

/-- The registered types. -/
def registry (i : Inventory) : Registry := i.catalogue.registry

/-- Register a type with its maker. -/
def register (i : Inventory) (t : TypeDef) (own : Maker) (holder : Option Holder) :
    Except SchemaFault Inventory :=
  match i.catalogue.register t holder.isSome with
  | .error fault => .error fault
  | .ok catalogue =>
    .ok ⟨catalogue, i.makers.change t.name ⟨holder.or own.holder, own.factory⟩⟩

/-- From now on, let a factory make the instances of an entity type. -/
def bind (i : Inventory) (name : Text) (factory : Factory) : Except SchemaFault Inventory :=
  match i.registry.entity name with
  | .error fault => .error fault
  | .ok _ => .ok { i with makers := i.makers.withFactory name factory }

/-- The reply to a change.  A change that fails is none. -/
def change (i : Inventory) : Except SchemaFault Inventory → Except SchemaFault Reply × Inventory
  | .error fault => (.error fault, i)
  | .ok changed => (.ok .done, changed)

/-- The reply to a question to the catalogue, which may keep the answer. -/
def question {α : Type} (i : Inventory) (reply : α → Reply)
    (answer : Except SchemaFault α × Catalogue) : Except SchemaFault Reply × Inventory :=
  (answer.1.map reply, { i with catalogue := answer.2 })

/-- The reply to a call, and the inventory behind it. -/
def perform (i : Inventory) : Call → Except SchemaFault Reply × Inventory
  | .register t own holder => i.change (i.register t own holder)
  | .bind name factory => i.change (i.bind name factory)
  | .attributesOf s => i.question .attributes (i.catalogue.attributesOf s)
  | .ownAttributes s others =>
    i.question .attributes (i.catalogue.ownAttributes s others, i.catalogue)
  | .ancestors s => i.question .names (i.catalogue.ancestors s)
  | .isSubtype sub sup => i.question .truth (i.catalogue.isSubtype sub sup)
  | .validate => i.question (fun _ => .done) i.catalogue.validate

/-- The inventory behind calls. -/
def after (i : Inventory) : List Call → Inventory
  | [] => i
  | call :: rest => after (i.perform call).2 rest

end Inventory

end Part21
