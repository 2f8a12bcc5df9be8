import Part21.Proofs.Schema.Ancestry
import Part21.Resolution.Basis

set_option autoImplicit false

/-!
# Following links

Where no holder and no factory has a say, the building of a record has two phases.
First its parameters are held against the schema, which asks for no other instance.
Then the references held, its links, are followed one after another in the order of the
text, and nothing is done between them.  Behind the last one the instance is there; its
attributes are known from the first phase on.  A factory has a say only then: it makes
something else of these attributes.  It does so at once if it starts no resolution of its own
(`Factory.AtOnce`).

The main statement is `Basis.build_eq_made`: the program that builds a record is this one,
where its entity type has no holder of its own.  Without factories it is `Basis.build_eq`.
-/

namespace Part21

/-- A reference that is held: the instance it leads to, the type expected there, and the
attribute it stands in. -/
structure Link where
  target : Int
  expected : TypeDef
  place : Text

namespace Build

variable {α β : Type}

/-- Follow links in turn and go on, unless one of them cannot be followed. -/
def after : List Link → Build α → Build α
  | [], next => next
  | l :: rest, next =>
    .visit l.target l.expected l.place fun answer =>
      match answer with
      | .ok () => after rest next
      | .error thrown => .done (.error thrown)

@[simp] theorem pure_bind (value : α) (f : α → Build β) :
    ((Pure.pure value : Build α) >>= f) = f value := rfl

theorem ofExcept_bind_ok (value : α) (f : α → Build β) :
    (ofExcept (.ok value) >>= f) = f value := rfl

/-- Going on behind links is going on behind what comes after them. -/
theorem after_bind (links : List Link) (next : Build α) (f : α → Build β) :
    (after links next >>= f) = after links (next >>= f) := by
  induction links with
  | nil => rfl
  | cons l rest ih =>
    change Build.visit _ _ _ _ = Build.visit _ _ _ _
    congr 1
    funext answer
    cases answer with
    | ok value => exact ih
    | error thrown => rfl

theorem after_append (first second : List Link) (next : Build α) :
    after (first ++ second) next = after first (after second next) := by
  induction first with
  | nil => rfl
  | cons l rest ih =>
    simp only [List.cons_append, after]
    congr 1
    funext answer
    cases answer with
    | ok value => exact ih
    | error thrown => rfl

theorem follow_bind (id : Int) (expected : TypeDef) (place : Text) (f : Unit → Build β) :
    (follow id expected place >>= f) = after [⟨id, expected, place⟩] (f ()) := by
  change Build.visit _ _ _ _ = Build.visit _ _ _ _
  congr 1
  funext answer
  cases answer <;> rfl

end Build

/-! ## Links and values of held values -/

namespace Held

mutual

/-- The links of a held value, in the order of the text. -/
def links : Held → List Link
  | value _ => []
  | reference id expected place => [⟨id, expected, place⟩]
  | typed _ held => links held
  | list items => allLinks items

/-- The links of held values, in the order of the text. -/
def allLinks : List Held → List Link
  | [] => []
  | held :: rest => links held ++ allLinks rest

end

mutual

/-- The value that a held value has once its links are followed. -/
def toValue : Held → Value
  | value v => v
  | reference id _ _ => .reference id
  | typed typeName held => .typed typeName (toValue held)
  | list items => .list (toValues items)

/-- The values that held values have once their links are followed. -/
def toValues : List Held → List Value
  | [] => []
  | held :: rest => toValue held :: toValues rest

end

mutual

theorem release_eq (held : Held) : held.release = Build.after held.links (pure held.toValue) := by
  match held with
  | .value v => rw [release, links, toValue]; rfl
  | .reference id expected place => rw [release, links, toValue]; exact Build.follow_bind ..
  | .typed typeName held =>
    rw [release, links, toValue, release_eq held, Build.after_bind]
    rfl
  | .list items =>
    rw [release, links, toValue, releaseAll_eq items, Build.after_bind]
    rfl

theorem releaseAll_eq (items : List Held) :
    releaseAll items = Build.after (allLinks items) (pure (toValues items)) := by
  match items with
  | [] => rw [releaseAll, allLinks, toValues]; rfl
  | held :: rest =>
    rw [releaseAll, allLinks, toValues, release_eq held, Build.after_bind, Build.after_append,
      Build.pure_bind, releaseAll_eq rest, Build.after_bind]
    rfl

end

/-- The links in the slots of an entity.  A derived attribute has none. -/
def slotLinks (slots : List (Attribute × Held)) : List Link :=
  slots.flatMap fun slot => if slot.1.derived then [] else slot.2.links

/-- The values in the slots of an entity under the names of the attributes, added to those
there are.  A derived attribute has none. -/
def fieldsOnto (fields : Fields Value) : List (Attribute × Held) → Fields Value
  | [] => fields
  | (a, held) :: rest =>
    if a.derived then fieldsOnto fields rest
    else fieldsOnto (fields.assign a.name held.toValue) rest

theorem releaseOnto_eq (fields : Fields Value) (slots : List (Attribute × Held)) :
    releaseOnto fields slots = Build.after (slotLinks slots) (pure (fieldsOnto fields slots)) := by
  induction slots generalizing fields with
  | nil => rfl
  | cons slot rest ih =>
    obtain ⟨a, held⟩ := slot
    have hcons : slotLinks ((a, held) :: rest) =
        (if a.derived then [] else held.links) ++ slotLinks rest := rfl
    rw [releaseOnto, fieldsOnto, hcons]
    cases hderived : a.derived with
    | true =>
      simp only [if_true, List.nil_append]
      exact ih fields
    | false =>
      simp only [Bool.false_eq_true, if_false]
      rw [release_eq, Build.after_bind, Build.after_append, Build.pure_bind, ih]

end Held

/-! ## Held records -/

/-- A record whose parameters are held: those of one entity type, or those of each part. -/
inductive HeldRecord where
  | simple (type : EntityType) (slots : List (Attribute × Held))
  | complex (parts : List (EntityType × List (Attribute × Held)))

namespace HeldRecord

/-- The links of a record, in the order of the text. -/
def links : HeldRecord → List Link
  | simple _ slots => Held.slotLinks slots
  | complex parts => parts.flatMap fun part => Held.slotLinks part.2

/-- The entity of a type with the values of held slots. -/
def entity (r : Registry) (id : Int) (e : EntityType) (slots : List (Attribute × Held)) : Entity :=
  ⟨e.key, id, (r.ancestors e).toOption.getD [], Held.fieldsOnto [] slots⟩

/-- The entities of parts under the names of their types, added to those there are. -/
def entitiesOnto (r : Registry) (id : Int) (entities : Fields Entity) :
    List (EntityType × List (Attribute × Held)) → Fields Entity
  | [] => entities
  | (e, slots) :: rest => entitiesOnto r id (entities.assign e.key (entity r id e slots)) rest

/-- The instance that a record is once its links are followed. -/
def toInstance (r : Registry) (id : Int) : HeldRecord → Instance
  | simple e slots => .entity (entity r id e slots)
  | complex parts => .complex ⟨id, entitiesOnto r id [] parts⟩

/-- What is done about a record once its links are followed, where a simple one has the given
factory. -/
def made (factory : Option Factory) (site : Site) : HeldRecord → Build Instance
  | simple e slots =>
    match factory with
    | none => pure (.entity (entity site.registry site.id e slots))
    | some make => make site (Held.fieldsOnto [] slots)
  | complex parts => pure (.complex ⟨site.id, entitiesOnto site.registry site.id [] parts⟩)

theorem made_none (site : Site) (held : HeldRecord) :
    held.made none site = pure (held.toInstance site.registry site.id) := by
  cases held <;> rfl

end HeldRecord

namespace Site

/-- Where two sites have the same schema and settings, parameters are held alike. -/
theorem hold_congr (site other : Site) (hregistry : site.registry = other.registry)
    (hsettings : site.settings = other.settings) (e : EntityType)
    (parameters : List Parameter) : site.hold e parameters = other.hold e parameters := by
  unfold hold
  rw [hregistry, hsettings]

theorem holdParts_congr (site other : Site) (hregistry : site.registry = other.registry)
    (hsettings : site.settings = other.settings) (all : List EntityType)
    (parts : List (EntityType × Group)) :
    site.holdParts all parts = other.holdParts all parts := by
  induction parts with
  | nil => rfl
  | cons part rest ih => simp only [holdParts, holdPart, hregistry, hsettings, ih]

theorem rooted_of_hold {site : Site} {e : EntityType} {parameters : List Parameter}
    {slots : List (Attribute × Held)} (h : site.hold e parameters = .ok slots) :
    site.registry.Rooted e := by
  unfold hold at h
  cases hattributes : site.registry.attributesOf e with
  | error fault => rw [hattributes] at h; cases h
  | ok attributes => exact Registry.rooted_of_attributesOf hattributes

theorem rooted_of_holdPart {site : Site} {e : EntityType} {others : List EntityType}
    {parameters : List Parameter} {slots : List (Attribute × Held)}
    (h : site.holdPart e others parameters = .ok slots) : site.registry.Rooted e := by
  unfold holdPart at h
  cases hattributes : site.registry.ownAttributes e others with
  | error fault => rw [hattributes] at h; cases h
  | ok attributes => exact Registry.rooted_of_ownAttributes hattributes

theorem rooted_of_holdParts {site : Site} {all : List EntityType}
    {parts : List (EntityType × Group)} {held : List (EntityType × List (Attribute × Held))}
    (h : site.holdParts all parts = .ok held) :
    ∀ part ∈ held, site.registry.Rooted part.1 := by
  induction parts generalizing held with
  | nil => cases h; nofun
  | cons part rest ih =>
    obtain ⟨e, group⟩ := part
    unfold holdParts at h
    split at h
    · cases h
    · rename_i slots hslots
      cases hrest : site.holdParts all rest with
      | error thrown => rw [hrest] at h; cases h
      | ok others =>
        rw [hrest] at h
        cases h
        exact List.forall_mem_cons.mpr ⟨rooted_of_holdPart hslots, ih hrest⟩

/-- The entity of a type that has ancestors. -/
theorem entity_of_rooted {site : Site} {e : EntityType} (h : site.registry.Rooted e)
    (slots : List (Attribute × Held)) :
    site.entity e (Held.fieldsOnto [] slots) =
      .ok (HeldRecord.entity site.registry site.id e slots) := by
  obtain ⟨names, hnames⟩ := Registry.ancestors_of_rooted h
  unfold entity HeldRecord.entity
  rw [hnames]
  rfl

theorem release_eq {site : Site} {e : EntityType} (h : site.registry.Rooted e)
    (slots : List (Attribute × Held)) :
    site.release e slots = Build.after (Held.slotLinks slots)
      (pure (HeldRecord.entity site.registry site.id e slots)) := by
  unfold release
  rw [Held.releaseOnto_eq, Build.after_bind, Build.pure_bind, entity_of_rooted h]
  rfl

theorem releaseParts_eq {site : Site} (entities : Fields Entity)
    {parts : List (EntityType × List (Attribute × Held))}
    (h : ∀ part ∈ parts, site.registry.Rooted part.1) :
    site.releaseParts entities parts =
      Build.after (parts.flatMap fun part => Held.slotLinks part.2)
        (pure (HeldRecord.entitiesOnto site.registry site.id entities parts)) := by
  induction parts generalizing entities with
  | nil => rfl
  | cons part rest ih =>
    obtain ⟨e, slots⟩ := part
    obtain ⟨hfirst, hrest⟩ := List.forall_mem_cons.mp h
    rw [releaseParts, release_eq hfirst, Build.after_bind, Build.pure_bind, ih _ hrest,
      List.flatMap_cons, Build.after_append]
    rfl

end Site

/-! ## The two phases -/

/-- Whatever it is answered, a building fails with errors of some kind only. -/
inductive Build.FailsBy {α : Type} (kind : Thrown → Prop) : Build α → Prop
  | done {outcome : Except Thrown α} (hkind : ∀ thrown, outcome = .error thrown → kind thrown) :
      FailsBy kind (.done outcome)
  | visit {id : Int} {expected : TypeDef} {place : Text} {next : Except Thrown Unit → Build α}
      (hnext : ∀ answer, FailsBy kind (next answer)) :
      FailsBy kind (.visit id expected place next)
  | resolve {id : Int} {next : Except Thrown Instance → Build α}
      (hnext : ∀ answer, FailsBy kind (next answer)) : FailsBy kind (.resolve id next)

namespace Factory

/-- A factory fails with errors of some kind only. -/
def FailsBy (make : Factory) (kind : Thrown → Prop) : Prop :=
  ∀ site fields, (make site fields).FailsBy kind

/-- A factory makes its instances at once: it starts no resolution of its own. -/
def AtOnce (make : Factory) : Prop := ∀ site fields, ∃ outcome, make site fields = .done outcome

/-- A factory is steady if it starts no resolution of its own and fails with errors of some kind
only. -/
structure Steady (make : Factory) (kind : Thrown → Prop) : Prop where
  atOnce : make.AtOnce
  failsBy : make.FailsBy kind

/-- A steady factory that makes nothing has failed with an error of the kind. -/
theorem Steady.kind_of_throw {make : Factory} {kind : Thrown → Prop} (h : make.Steady kind)
    {site : Site} {fields : Fields Value} {thrown : Thrown}
    (hthrow : make site fields = .throw thrown) : kind thrown := by
  have hfails := h.failsBy site fields
  rw [hthrow] at hfails
  cases hfails with
  | done hkind => exact hkind thrown rfl

end Factory

/-- Instances are built by default: no entity type has a holder of its own or a factory,
and neither has the one that is brought along. -/
structure Basis.ByDefault (b : Basis) (brought : Option Blueprint) : Prop where
  makers : ∀ key, b.makers key = .default
  brought : ∀ own, brought = some own → own.maker = .default

namespace Basis

/-- The site of the instance with which a resolution begins. -/
def outset (b : Basis) (id : Int) : Site := ⟨id, 1, [], b.registry, b.settings⟩

/-- The first phase of building a record: its entity types are looked up, and its
parameters are held against them. -/
def hold (b : Basis) (brought : Option Blueprint) (id : Int) (r : Record) :
    Except Thrown HeldRecord :=
  match r.body with
  | .simple group =>
    match b.blueprint brought group.keyword with
    | .error thrown => .error thrown
    | .ok own =>
      match (b.outset id).hold own.definition group.parameters with
      | .error thrown => .error thrown
      | .ok slots => .ok (.simple own.definition slots)
  | .complex first others _ =>
    match b.partTypes brought (first :: others) with
    | .error thrown => .error thrown
    | .ok parts =>
      match (b.outset id).holdParts (parts.map Prod.fst) parts with
      | .error thrown => .error thrown
      | .ok held => .ok (.complex held)

/-- The factory of the entity type of a simple record. -/
def factory? (b : Basis) (brought : Option Blueprint) (r : Record) : Option Factory :=
  match r.body with
  | .simple group =>
    match b.blueprint brought group.keyword with
    | .error _ => none
    | .ok own => own.maker.factory
  | .complex _ _ _ => none

/-- What is done about a held record once its links are followed. -/
def made (b : Basis) (brought : Option Blueprint) (site : Site) (r : Record) (held : HeldRecord) :
    Build Instance :=
  held.made (b.factory? brought r) site

/-- A simple record is held by the default holder: its entity type has no other one. -/
def HeldByDefault (b : Basis) (brought : Option Blueprint) (r : Record) : Prop :=
  ∀ group own, r.body = .simple group → b.blueprint brought group.keyword = .ok own →
    own.maker.holder = none

variable {b : Basis} {brought : Option Blueprint}

theorem ByDefault.blueprint (h : b.ByDefault brought) {keyword : Text} {own : Blueprint}
    (hown : b.blueprint brought keyword = .ok own) : own.maker = .default := by
  unfold Basis.blueprint at hown
  split at hown
  · cases hown
    exact h.makers _
  · split at hown
    · rename_i other hother
      split at hown
      · cases hown
        exact h.brought own rfl
      · cases hown
    · cases hown

/-- The program that builds a record by the default holder: the record is held, its links are
followed, and a factory may make something of the values. -/
theorem build_eq_made {r : Record} (h : b.HeldByDefault brought r) {site : Site}
    (hregistry : site.registry = b.registry) (hsettings : site.settings = b.settings) :
    b.build brought site r =
      match b.hold brought site.id r with
      | .error thrown => Build.throw thrown
      | .ok held => Build.after held.links (b.made brought site r held) := by
  unfold build hold made factory?
  cases hbody : r.body with
  | simple group =>
    dsimp only
    cases hown : b.blueprint brought group.keyword with
    | error thrown => rfl
    | ok own =>
      have hholder := h group own hbody hown
      dsimp only
      rw [← Site.hold_congr site (b.outset site.id) hregistry hsettings]
      unfold Blueprint.build
      rw [hholder]
      unfold Holder.default
      dsimp only [Option.getD]
      cases hslots : site.hold own.definition group.parameters with
      | error thrown => rfl
      | ok slots =>
        rw [Build.ofExcept_bind_ok]
        cases own.maker.factory with
        | none =>
          dsimp only
          rw [Site.release_eq (Site.rooted_of_hold hslots), Build.after_bind]
          rfl
        | some make =>
          dsimp only
          rw [Held.releaseOnto_eq, Build.after_bind]
          rfl
  | complex first others loose =>
    dsimp only
    cases hparts : b.partTypes brought (first :: others) with
    | error thrown => rfl
    | ok parts =>
      dsimp only
      rw [← Site.holdParts_congr site (b.outset site.id) hregistry hsettings]
      unfold Site.buildComplex
      cases hheld : site.holdParts (parts.map Prod.fst) parts with
      | error thrown => rfl
      | ok held =>
        rw [Build.ofExcept_bind_ok, Site.releaseParts_eq [] (Site.rooted_of_holdParts hheld),
          Build.after_bind]
        rfl

theorem ByDefault.heldByDefault (h : b.ByDefault brought) (r : Record) :
    b.HeldByDefault brought r := by
  intro group own _ hown
  rw [h.blueprint hown]
  rfl

/-- A held record is made into an instance, or a factory makes something of it. -/
theorem made_cases (b : Basis) (brought : Option Blueprint) (site : Site) (r : Record)
    (held : HeldRecord) :
    (∃ value, b.made brought site r held = pure value) ∨
      ∃ make ∈ b.factory? brought r, ∃ fields,
        b.made brought site r held = make site fields := by
  unfold made HeldRecord.made
  cases held with
  | simple e slots =>
    cases hmake : b.factory? brought r with
    | none => exact .inl ⟨_, rfl⟩
    | some make => exact .inr ⟨make, rfl, _, rfl⟩
  | complex parts => exact .inl ⟨_, rfl⟩

/-- Where a factory makes its instances at once, nothing more is asked for behind the links. -/
theorem made_eq_done {r : Record} (h : ∀ make ∈ b.factory? brought r, make.AtOnce) (site : Site)
    (held : HeldRecord) : ∃ outcome, b.made brought site r held = .done outcome := by
  rcases b.made_cases brought site r held with ⟨value, hvalue⟩ | ⟨make, hmake, fields, hfields⟩
  · exact ⟨_, hvalue⟩
  · rw [hfields]
    exact h make hmake site fields

theorem ByDefault.factory?_eq_none (h : b.ByDefault brought) (r : Record) :
    b.factory? brought r = none := by
  unfold factory?
  split
  · split
    · rfl
    · rename_i own hown
      rw [h.blueprint hown]
      rfl
  · rfl

/-- Without a factory, held records become the instances that they are. -/
theorem made_of_factory?_eq_none {r : Record} (h : b.factory? brought r = none) (site : Site)
    (held : HeldRecord) :
    b.made brought site r held = pure (held.toInstance site.registry site.id) := by
  rw [made, h, HeldRecord.made_none]

theorem ByDefault.made_eq (h : b.ByDefault brought) (site : Site) (r : Record)
    (held : HeldRecord) :
    b.made brought site r held = pure (held.toInstance site.registry site.id) :=
  made_of_factory?_eq_none (h.factory?_eq_none r) site held

theorem factory?_of_complex {r : Record} {first : Group} {others : List Group}
    {loose : List Parameter} (hbody : r.body = .complex first others loose) :
    b.factory? brought r = none := by
  unfold factory?
  rw [hbody]

/-- The program that builds a record where nothing but the schema has a say: the record is
held, its links are followed, and the instance is there. -/
theorem build_eq (h : b.ByDefault brought) {site : Site} (hregistry : site.registry = b.registry)
    (hsettings : site.settings = b.settings) (r : Record) :
    b.build brought site r =
      match b.hold brought site.id r with
      | .error thrown => Build.throw thrown
      | .ok held => Build.after held.links (pure (held.toInstance b.registry site.id)) := by
  rw [build_eq_made (h.heldByDefault r) hregistry hsettings]
  cases b.hold brought site.id r with
  | error thrown => rfl
  | ok held =>
    dsimp only
    rw [h.made_eq, hregistry]

/-! ## Bases that differ in their records -/

/-- Two bases differ at most in their records. -/
structure SameSchema (b c : Basis) : Prop where
  registry : b.registry = c.registry
  makers : b.makers = c.makers
  settings : b.settings = c.settings

namespace SameSchema

variable {c : Basis}

theorem blueprint_eq (h : b.SameSchema c) : b.blueprint = c.blueprint := by
  funext brought keyword
  unfold blueprint
  rw [h.registry, h.makers]

theorem partTypes_eq (h : b.SameSchema c) : b.partTypes = c.partTypes := by
  funext brought groups
  induction groups with
  | nil => rfl
  | cons group rest ih => rw [partTypes, partTypes, h.blueprint_eq, ih]

theorem build_eq (h : b.SameSchema c) : b.build = c.build := by
  funext brought site r
  unfold build
  rw [h.blueprint_eq, h.partTypes_eq]

theorem hold_eq (h : b.SameSchema c) : b.hold = c.hold := by
  funext brought id r
  unfold hold outset
  rw [h.blueprint_eq, h.partTypes_eq, h.registry, h.settings]

theorem checkTarget_eq (h : b.SameSchema c) : b.checkTarget = c.checkTarget := by
  obtain ⟨registry, makers, settings, records⟩ := b
  obtain ⟨_, _, _, others⟩ := c
  obtain ⟨rfl, rfl, rfl⟩ := h
  rfl

end SameSchema

end Basis

end Part21
