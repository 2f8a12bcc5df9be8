import Part21.Proofs.Resolution.Fields
import Part21.Proofs.Resolution.Origins
import Part21.Proofs.Resolution.Slots

set_option autoImplicit false

/-!
# Values that are kept

Values are put under names one after another, so of two values for one name only the second one
stays, at the place of the first (`Fields.Leaves`).  The parameters of a record are given by
position and end up under the names of attributes, and the groups of a complex record end up
under the names of their types.

So a record is kept as a whole exactly where its names are distinct.  This is said of what a table
answers, whatever it was asked for before: of the entities of simple records by
`Table.fills_of_resolve`, of the parts of complex ones by `Table.composes_of_resolve`.
-/

namespace Part21

namespace Fields

variable {α : Type} {row fields : Fields α}

/-! ## Rows of values -/

/-- What is left of a row of values if they are put under their names one after another: each name
once, in the order in which the names come first, with the last value of that name.  That is the
whole row only if no name comes twice. -/
structure Leaves (row fields : Fields α) : Prop where
  names : fields.map Prod.fst = (row.map Prod.fst).eraseDups
  distinct : fields.Distinct
  last : ∀ field ∈ fields, ∃ before after, row = before ++ field :: after ∧
    field.1 ∉ after.map Prod.fst
  whole : fields = row ↔ row.Distinct

theorem merge_concat (fields row : Fields α) (field : Text × α) :
    fields.merge (row ++ [field]) = (fields.merge row).assign field.1 field.2 :=
  List.foldl_concat ..

theorem distinct_merge (row : Fields α) : (Fields.merge [] row).Distinct := by
  induction row using List.reverseRecOn with
  | nil => exact distinct_nil
  | append_singleton row field ih =>
    rw [merge_concat]
    exact ih.assign field.1 field.2

theorem names_merge (row : Fields α) :
    (Fields.merge [] row).map Prod.fst = (row.map Prod.fst).eraseDups := by
  induction row using List.reverseRecOn with
  | nil => rfl
  | append_singleton row field ih =>
    rw [merge_concat, names_assign, ih, List.map_append, List.eraseDups_append, List.map_singleton]
    by_cases hmem : field.1 ∈ row.map Prod.fst
    · simp [List.removeAll, hmem]
    · simp [List.removeAll, hmem, List.eraseDups_cons]

theorem last_merge (row : Fields α) : ∀ field ∈ Fields.merge [] row, ∃ before after,
    row = before ++ field :: after ∧ field.1 ∉ after.map Prod.fst := by
  induction row using List.reverseRecOn with
  | nil => nofun
  | append_singleton row new ih =>
    intro field hmem
    rw [merge_concat, mem_assign (distinct_merge row)] at hmem
    rcases hmem with rfl | ⟨hold, hother⟩
    · exact ⟨row, [], rfl, List.not_mem_nil⟩
    · obtain ⟨before, after, rfl, hlast⟩ := ih field hold
      refine ⟨before, after ++ [new], by simp, ?_⟩
      rw [List.map_append, List.mem_append, not_or]
      exact ⟨hlast, fun hnew => hother (List.mem_singleton.mp hnew)⟩

theorem merge_of_distinct (h : (fields ++ row).Distinct) : fields.merge row = fields ++ row := by
  induction row generalizing fields with
  | nil => exact (List.append_nil fields).symm
  | cons field rest ih =>
    have hnew : field.1 ∉ fields.map Prod.fst := by
      intro hmem
      rw [Distinct, List.map_append] at h
      exact List.disjoint_of_nodup_append h hmem List.mem_cons_self
    rw [merge_cons, assign_of_not_mem hnew, ih (by simpa using h), List.append_assoc]
    rfl

theorem leaves_merge (row : Fields α) : Leaves row (Fields.merge [] row) where
  names := names_merge row
  distinct := distinct_merge row
  last := last_merge row
  whole := ⟨fun h => h ▸ distinct_merge row, fun h => merge_of_distinct h⟩

end Fields

/-! ## Parameters and attributes -/

/-- The names of the attributes that are not derived, in their order. -/
def Attribute.givenNames (attributes : List Attribute) : List Text :=
  (attributes.filter fun a => !a.derived).map Attribute.name

/-- Parameters are converted against attributes, one against each: the values of the attributes that
are not derived, in their order and under their names. -/
inductive Registry.Converts (r : Registry) (s : Settings) :
    List Attribute → List Parameter → Fields Value → Prop
  | nil : Converts r s [] [] []
  | derived {a : Attribute} {attributes : List Attribute} {parameters : List Parameter}
      {row : Fields Value} (hderived : a.derived = true)
      (hrest : Converts r s attributes parameters row) :
      Converts r s (a :: attributes) (.inapplicable :: parameters) row
  | given {a : Attribute} {attributes : List Attribute} {p : Parameter}
      {parameters : List Parameter} {held : Held} {row : Fields Value} (hgiven : a.derived = false)
      (hheld : Held.ofSlot r s a p = .ok held) (hrest : Converts r s attributes parameters row) :
      Converts r s (a :: attributes) (p :: parameters) ((a.name, held.toValue) :: row)

theorem Registry.Converts.names {r : Registry} {s : Settings} {attributes : List Attribute}
    {parameters : List Parameter} {row : Fields Value} (h : r.Converts s attributes parameters row) :
    row.map Prod.fst = Attribute.givenNames attributes := by
  induction h with
  | nil => rfl
  | derived hderived _ ih => simpa [Attribute.givenNames, hderived] using ih
  | given hgiven _ _ ih => simpa [Attribute.givenNames, hgiven] using ih

namespace Held

variable {r : Registry} {s : Settings} {attributes : List Attribute} {parameters : List Parameter}
  {slots : List (Attribute × Held)}

theorem parameter_of_derived {a : Attribute} {p : Parameter} {held : Held}
    (h : ofSlot r s a p = .ok held) (hderived : a.derived = true) : p = .inapplicable := by
  unfold ofSlot at h
  rw [if_pos hderived] at h
  split at h
  · rfl
  · rw [if_pos hderived] at h
    cases h

/-- The values in slots are those that the parameters are converted to, put under their names one
after another. -/
theorem converts_of_ofSlots (hlength : parameters.length = attributes.length)
    (h : ofSlots r s attributes parameters = .ok slots) :
    ∃ row, r.Converts s attributes parameters row ∧
      ∀ fields, fieldsOnto fields slots = fields.merge row := by
  induction attributes generalizing parameters slots with
  | nil =>
    obtain rfl : parameters = [] := List.eq_nil_of_length_eq_zero hlength
    cases h
    exact ⟨[], .nil, fun _ => rfl⟩
  | cons a attributes ih =>
    cases parameters with
    | nil => cases hlength
    | cons p parameters =>
      obtain ⟨held, rest, hheld, hrest, rfl⟩ := ofSlots_cons_eq_ok h
      obtain ⟨row, hrow, hfields⟩ := ih (Nat.succ.inj hlength) hrest
      cases hderived : a.derived with
      | true =>
        obtain rfl := parameter_of_derived hheld hderived
        refine ⟨row, .derived hderived hrow, fun fields => ?_⟩
        rw [fieldsOnto, if_pos hderived, hfields]
      | false =>
        refine ⟨_, .given hderived hheld hrow, fun fields => ?_⟩
        rw [fieldsOnto, hderived, if_neg Bool.false_ne_true, hfields, Fields.merge_cons]

theorem converts_of_ofGroup {typeName : Text}
    (h : ofGroup r s typeName attributes parameters = .ok slots) :
    ∃ row, r.Converts s attributes parameters row ∧ fieldsOnto [] slots = Fields.merge [] row := by
  unfold ofGroup at h
  split at h
  · rename_i hlength
    obtain ⟨row, hrow, hfields⟩ := converts_of_ofSlots hlength h
    exact ⟨row, hrow, hfields []⟩
  · cases h

end Held

/-! ## Entities -/

/-- The entity is what a group says of the instance of a name: it is of the type that the keyword
names, and its attributes are what is left of the parameters, converted against those of the type.
Nothing is lost unless two attributes that are not derived have one name. -/
structure Group.Fills (group : Group) (r : Registry) (s : Settings) (id : Int)
    (attributes : List Attribute) (x : Entity) : Prop where
  sameId : x.id = id
  typeName : x.typeName = group.keyword.upper
  attributes : ∃ row, r.Converts s attributes group.parameters row ∧ row.Leaves x.attributes ∧
    (x.attributes = row ↔ (Attribute.givenNames attributes).Nodup)

theorem Group.fills_of_ofGroup {group : Group} {r : Registry} {s : Settings} (id : Int)
    {e : EntityType} (hkey : e.key = group.keyword.upper) {attributes : List Attribute}
    {slots : List (Attribute × Held)}
    (h : Held.ofGroup r s e.name attributes group.parameters = .ok slots) :
    group.Fills r s id attributes (HeldRecord.entity r id e slots) where
  sameId := rfl
  typeName := hkey
  attributes := by
    obtain ⟨row, hrow, hfields⟩ := Held.converts_of_ofGroup h
    have hleaves : Fields.Leaves row (HeldRecord.entity r id e slots).attributes := by
      rw [HeldRecord.entity, hfields]
      exact Fields.leaves_merge row
    refine ⟨row, hrow, hleaves, ?_⟩
    rw [hleaves.whole, Fields.Distinct, hrow.names]

namespace Basis

variable {b : Basis} {brought : Option Blueprint}

/-- The type that a keyword stands for has the keyword as its name, letter case ignored. -/
theorem key_of_blueprint {keyword : Text} {own : Blueprint}
    (h : b.blueprint brought keyword = .ok own) : own.definition.key = keyword.upper := by
  unfold blueprint at h
  split at h
  · rename_i e he
    cases h
    exact Registry.key_of_find? (Registry.entity?_eq_some.mp he)
  · split at h
    · split at h
      · rename_i hkey
        cases h
        exact hkey
      · cases h
    · cases h

theorem keys_partTypes {groups : List Group} {parts : List (EntityType × Group)}
    (h : b.partTypes brought groups = .ok parts) :
    ∀ part ∈ parts, part.1.key = part.2.keyword.upper := by
  induction groups generalizing parts with
  | nil =>
    cases h
    nofun
  | cons group rest ih =>
    unfold partTypes at h
    split at h
    · cases h
    · rename_i own hown
      split at h
      · cases h
      · rename_i others hothers
        cases h
        exact List.forall_mem_cons.mpr ⟨key_of_blueprint hown, ih hothers⟩

/-- The entity under the name of its type is what a group of a complex record says, the other types
of the record being given. -/
def IsPart (b : Basis) (id : Int) (types : List EntityType) (part : EntityType × Group)
    (field : Text × Entity) : Prop :=
  field.1 = part.2.keyword.upper ∧ ∃ attributes,
    b.registry.ownAttributes part.1 (types.filter fun other => other.key ≠ part.1.key) =
      .ok attributes ∧
    part.2.Fills b.registry b.settings id attributes field.2

/-- The parts of a complex record are held one for each group, in their order. -/
theorem forall₂_isPart {id : Int} {types : List EntityType} {parts : List (EntityType × Group)}
    (hkeys : ∀ part ∈ parts, part.1.key = part.2.keyword.upper)
    {held : List (EntityType × List (Attribute × Held))}
    (h : (b.outset id).holdParts types parts = .ok held) :
    List.Forall₂ (b.IsPart id types) parts
      (held.map fun part => (part.1.key, HeldRecord.entity b.registry id part.1 part.2)) := by
  induction parts generalizing held with
  | nil =>
    cases h
    exact .nil
  | cons part rest ih =>
    obtain ⟨hkey, hrest⟩ := List.forall_mem_cons.mp hkeys
    obtain ⟨slots, others, hslots, hothers, rfl⟩ := Site.holdParts_cons_eq_ok h
    refine .cons ⟨hkey, ?_⟩ (ih hrest hothers)
    unfold Site.holdPart at hslots
    split at hslots
    · cases hslots
    · rename_i attributes hattributes
      exact ⟨attributes, hattributes, Group.fills_of_ofGroup id hkey hslots⟩

end Basis

/-- The entities of parts are put under the names of their types one after another. -/
theorem HeldRecord.entitiesOnto_eq_merge (r : Registry) (id : Int) (entities : Fields Entity)
    (parts : List (EntityType × List (Attribute × Held))) :
    entitiesOnto r id entities parts =
      entities.merge (parts.map fun part => (part.1.key, entity r id part.1 part.2)) := by
  induction parts generalizing entities with
  | nil => rfl
  | cons part rest ih => rw [entitiesOnto, ih, List.map_cons, Fields.merge_cons]

namespace Basis

variable {b : Basis} {brought : Option Blueprint} {id : Int} {r : Record} {held : HeldRecord}
  {value : Instance}

/-! ## Instances of records -/

/-- The complex instance is what the groups of a record say: of each group an entity is made, and
these are put under the names of their types one after another.  None is lost unless two keywords
are the same, letter case ignored. -/
structure Composes (b : Basis) (brought : Option Blueprint) (id : Int) (r : Record)
    (c : ComplexEntity) : Prop where
  sameId : c.id = id
  parts : ∃ (parts : List (EntityType × Group)) (row : Fields Entity),
    b.partTypes brought r.groups = .ok parts ∧
    List.Forall₂ (b.IsPart id (parts.map Prod.fst)) parts row ∧ row.Leaves c.parts ∧
    (c.parts = row ↔ (r.keywords.map Text.upper).Nodup)

/-- A simple record of a type without a factory becomes an entity. -/
theorem fills_of_makes {group : Group} (hbody : r.body = .simple group)
    (hfactory : ∀ own, b.blueprint brought group.keyword = .ok own → own.maker.factory = none)
    (hheld : b.hold brought id r = .ok held) (hmakes : b.Makes brought id r held value) :
    ∃ own attributes x, b.blueprint brought group.keyword = .ok own ∧
      b.registry.attributesOf own.definition = .ok attributes ∧ value = .entity x ∧
      group.Fills b.registry b.settings id attributes x := by
  cases held with
  | simple e slots =>
    obtain ⟨only, own, honly, hown, rfl, hslots⟩ := hold_simple_eq_ok hheld
    obtain rfl : only = group := Body.simple.inj (honly.symm.trans hbody)
    have hnone : b.factory? brought r = none := by
      unfold factory?
      rw [hbody]
      dsimp only
      rw [hown]
      exact hfactory own hown
    obtain rfl := hmakes.eq_toInstance hnone
    unfold Site.hold at hslots
    split at hslots
    · cases hslots
    · rename_i attributes hattributes
      exact ⟨own, attributes, _, hown, hattributes, rfl,
        Group.fills_of_ofGroup id (key_of_blueprint hown) hslots⟩
  | complex parts =>
    obtain ⟨first, others, loose, _, hcomplex, _, _⟩ := hold_complex_eq_ok hheld
    rw [hbody] at hcomplex
    cases hcomplex

theorem heldByDefault_of_isComplex (hcomplex : r.isComplex = true) : b.HeldByDefault brought r := by
  intro group own hbody
  rw [Record.isComplex, hbody] at hcomplex
  cases hcomplex

theorem names_of_forall₂_isPart {types : List EntityType} {parts : List (EntityType × Group)}
    {row : Fields Entity} (h : List.Forall₂ (b.IsPart id types) parts row) :
    row.map Prod.fst = (parts.map Prod.snd).map fun group => group.keyword.upper := by
  induction h with
  | nil => rfl
  | cons hpart _ ih => rw [List.map_cons, hpart.1, ih, List.map_cons, List.map_cons]

/-- A complex record becomes a complex instance. -/
theorem composes_of_makes (hcomplex : r.isComplex = true) (hheld : b.hold brought id r = .ok held)
    (hmakes : b.Makes brought id r held value) :
    ∃ c, value = .complex c ∧ b.Composes brought id r c := by
  cases held with
  | simple e slots =>
    obtain ⟨group, _, hbody, _⟩ := hold_simple_eq_ok hheld
    rw [Record.isComplex, hbody] at hcomplex
    cases hcomplex
  | complex slots =>
    obtain ⟨first, others, loose, parts, hbody, hparts, hslots⟩ := hold_complex_eq_ok hheld
    obtain rfl := hmakes.eq_toInstance (factory?_of_complex hbody)
    have hgroups : r.groups = first :: others := by rw [Record.groups, hbody]; rfl
    have hrow := forall₂_isPart (keys_partTypes hparts) hslots
    have hnames := names_of_forall₂_isPart hrow
    rw [groups_partTypes hparts, ← hgroups] at hnames
    rw [HeldRecord.toInstance, HeldRecord.entitiesOnto_eq_merge]
    refine ⟨_, rfl, rfl, parts, _, hgroups ▸ hparts, hrow, Fields.leaves_merge _, ?_⟩
    rw [(Fields.leaves_merge _).whole, Fields.Distinct, hnames, Record.keywords, List.map_map]
    rfl

end Basis

/-! ## Samples -/

namespace Sample

/-- A type with one attribute. -/
def side (name own : Text) : EntityType :=
  ⟨name, [⟨own, .simple .integer, false, false⟩], [], false, []⟩

/-- A type with two supertypes and nothing of its own. -/
def vaneType : EntityType := ⟨"VANE", [], ["WEST", "EAST"], false, []⟩

/-- A registry of this type and of its supertypes, of which each has an attribute of the given
name. -/
def vanes (west east : Text) : Registry :=
  [side "WEST" west, side "EAST" east, vaneType].foldl
    (fun r e => (r.register (.entity e) false).toOption.getD r) (.initial "vanes")

/-- An instance of the type with both supertypes. -/
def vane : Record := ⟨some 1, .simple ⟨"VANE", [.integer 1, .integer 2]⟩, none, none⟩

/-- An instance of two groups. -/
def sides (first second : Text) : Record :=
  ⟨some 1, .complex ⟨first, [.integer 1]⟩ [⟨second, [.integer 2]⟩] [], none, none⟩

/-- A table with an instance. -/
def vaneTable (west east : Text) (r : Record) : Table :=
  (Table.empty (vanes west east) .initial .default).session [.add r]

theorem eq_of_blueprint_vane {brought : Option Blueprint} {own : Blueprint}
    (h : (vaneTable "w" "e" vane).basis.blueprint brought "VANE" = .ok own) :
    own = ⟨vaneType, .default⟩ := by
  have hentity : (vaneTable "w" "e" vane).basis.registry.entity? "VANE" = some vaneType := rfl
  unfold Basis.blueprint at h
  rw [hentity] at h
  cases h
  rfl

end Sample

/-! ## Answers -/

namespace Table

variable {registry : Registry} {makers : Makers} {settings : Settings} {requests : List Request}
  {t : Table} {id : Int} {expected : Option Expected} {r : Record} {value : Instance}

/-- Requests of any kind are made of a table, and then an instance is asked for and answered
that has a simple record.  By whatever type its keyword stands for, the instance is built by the
default holder and no factory has a say.  Then it is an entity of such a type.  Its attributes
come from the parameters, one for each attribute of the type that is not derived, in their order
and under their names; of those that have one name only the last one is left. -/
theorem fills_of_resolve (ht : (empty registry makers settings).session requests = t)
    (hr : t.basis.population.find? id = some r) {group : Group} (hbody : r.body = .simple group)
    (hdefault : ∀ brought own, BroughtBy (requests ++ [.resolve id expected]) brought →
      t.basis.blueprint brought group.keyword = .ok own → own.maker = .default)
    (h : (t.resolve id expected).1 = .ok value) :
    ∃ brought own attributes x, BroughtBy (requests ++ [.resolve id expected]) brought ∧
      t.basis.blueprint brought group.keyword = .ok own ∧
      t.basis.registry.attributesOf own.definition = .ok attributes ∧ value = .entity x ∧
      group.Fills t.basis.registry t.basis.settings id attributes x := by
  have hholder : ∀ brought, BroughtBy (requests ++ [.resolve id expected]) brought →
      t.basis.HeldByDefault brought r := by
    intro brought hbrought only own honly hown
    obtain rfl : only = group := Body.simple.inj (honly.symm.trans hbody)
    rw [hdefault brought own hbrought hown]
    rfl
  obtain ⟨brought, held, hbrought, hheld, hmakes⟩ := makes_of_resolve ht hr hholder h
  have hfactory : ∀ own, t.basis.blueprint brought group.keyword = .ok own →
      own.maker.factory = none := by
    intro own hown
    rw [hdefault brought own hbrought hown]
    rfl
  obtain ⟨own, attributes, x, hown, hattributes, hx, hfills⟩ :=
    Basis.fills_of_makes hbody hfactory hheld hmakes
  exact ⟨brought, own, attributes, x, hbrought, hown, hattributes, hx, hfills⟩

theorem fills_of_resolve_vane :
    ∃ x, ((Sample.vaneTable "w" "e" Sample.vane).resolve 1 none).1 = .ok (.entity x) ∧
      x.attributes.map Prod.fst = ["w", "e"] := by
  obtain ⟨value, hvalue⟩ : ∃ value,
      ((Sample.vaneTable "w" "e" Sample.vane).resolve 1 none).1 = .ok value := ⟨_, rfl⟩
  have hr : (Sample.vaneTable "w" "e" Sample.vane).basis.population.find? 1 = some Sample.vane := rfl
  have hdefault : ∀ brought own, BroughtBy ([.add Sample.vane] ++ [.resolve 1 none]) brought →
      (Sample.vaneTable "w" "e" Sample.vane).basis.blueprint brought "VANE" = .ok own →
      own.maker = .default := by
    intro brought own _ hown
    rw [Sample.eq_of_blueprint_vane hown]
  obtain ⟨brought, own, attributes, x, -, hown, hattributes, rfl, hfills⟩ :=
    fills_of_resolve rfl hr rfl hdefault hvalue
  obtain ⟨row, hrow, hleaves, hwhole⟩ := hfills.attributes
  obtain rfl := Sample.eq_of_blueprint_vane hown
  cases hattributes
  refine ⟨x, hvalue, ?_⟩
  rw [hwhole.mpr (by decide), hrow.names]
  rfl

/-- Where both supertypes have an attribute of one name, only the second value is left of the two
that the record gives. -/
theorem not_fills_of_namesakes :
    let t := Sample.vaneTable "x" "x" Sample.vane
    (∃ attributes, t.basis.registry.attributesOf Sample.vaneType = .ok attributes ∧
      attributes.map (fun a => (a.name, a.derived)) = [(("x" : Text), false), ("x", false)]) ∧
    ∃ x, (t.resolve 1 none).1 = .ok (.entity x) ∧ x.attributes = [(("x" : Text), .integer 2)] :=
  ⟨⟨_, rfl, rfl⟩, _, rfl, rfl⟩

/-- Requests of any kind are made of a table with any holders and factories, and then an
instance is asked for and answered that has a complex record.  Then it is a complex instance,
and each of its parts is what a group of the record says; of those groups that have one keyword,
letter case ignored, only the last one is left. -/
theorem composes_of_resolve (ht : (empty registry makers settings).session requests = t)
    (hr : t.basis.population.find? id = some r) (hcomplex : r.isComplex = true)
    (h : (t.resolve id expected).1 = .ok value) :
    ∃ brought c, BroughtBy (requests ++ [.resolve id expected]) brought ∧ value = .complex c ∧
      t.basis.Composes brought id r c := by
  obtain ⟨brought, held, hbrought, hheld, hmakes⟩ :=
    makes_of_resolve ht hr (fun _ _ => Basis.heldByDefault_of_isComplex hcomplex) h
  obtain ⟨c, hc, hcomposes⟩ := Basis.composes_of_makes hcomplex hheld hmakes
  exact ⟨brought, c, hbrought, hc, hcomposes⟩

theorem composes_of_resolve_sides :
    ∃ c, ((Sample.vaneTable "x" "x" (Sample.sides "EAST" "west")).resolve 1 none).1 =
        .ok (.complex c) ∧ c.parts.map Prod.fst = ["EAST", "WEST"] := by
  obtain ⟨value, hvalue⟩ : ∃ value,
      ((Sample.vaneTable "x" "x" (Sample.sides "EAST" "west")).resolve 1 none).1 = .ok value :=
    ⟨_, rfl⟩
  have hr : (Sample.vaneTable "x" "x" (Sample.sides "EAST" "west")).basis.population.find? 1 =
      some (Sample.sides "EAST" "west") := rfl
  obtain ⟨brought, c, -, rfl, hcomposes⟩ := composes_of_resolve rfl hr rfl hvalue
  obtain ⟨parts, row, hparts, hrow, -, hwhole⟩ := hcomposes.parts
  refine ⟨c, hvalue, ?_⟩
  rw [hwhole.mpr (by decide), Basis.names_of_forall₂_isPart hrow, Basis.groups_partTypes hparts]
  rfl

/-- Of two groups with one keyword only the second is left, and the value of the first is
nowhere. -/
theorem not_composes_of_twins :
    let r := Sample.sides "WEST" "West"
    r.groups.map Group.keyword = ["WEST", "West"] ∧
      ∃ x, ((Sample.vaneTable "w" "e" r).resolve 1 none).1 = .ok (.complex ⟨1, [("WEST", x)]⟩) ∧
        x.attributes = [(("w" : Text), .integer 2)] :=
  ⟨rfl, _, rfl, rfl⟩

end Table

end Part21
