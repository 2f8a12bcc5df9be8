import Part21.Proofs.Resolution.Brought
import Part21.Proofs.Resolution.Fields
import Part21.Proofs.Resolution.Slots
import Part21.Proofs.Schema.Linearization
import Part21.Resolution.Reading

set_option autoImplicit false

/-!
# Records written part by part

An instance of one entity type can also be written part by part: one group for each entity type of
the linearization, with the parameters of the attributes that this type declares itself
(`Spreads`).  The attributes are then found part by part, each with the redeclarations of the
other parts, and not all at once.

Both forms are held with the same slots or fail with the same error (`TwoForms.hold_cases`).  The
instances made of these slots have the same attributes (`HeldRecord.attributes_entitiesOnto`) and
the same types (`TwoForms.mem_typeNames`), and either record is of the types that the other one is
of (`TwoForms.recordIs_eq`).
-/

namespace Part21

/-- Parameters are spread over groups, one for each entity type: a group has the name of its type
and a parameter for each attribute that the type declares itself. -/
inductive Spreads : List EntityType → List Parameter → List Group → Prop
  | nil : Spreads [] [] []
  | cons {e : EntityType} {types : List EntityType} {group : Group} {groups : List Group}
      {parameters : List Parameter} (hname : group.keyword.upper = e.key)
      (hlength : group.parameters.length = e.attributes.length)
      (hrest : Spreads types parameters groups) :
      Spreads (e :: types) (group.parameters ++ parameters) (group :: groups)

/-- A type declares as many attributes whatever is redeclared of them. -/
theorem Registry.length_declaredAttributes (among : List EntityType) (e : EntityType) :
    (declaredAttributes among e).length = e.attributes.length := List.length_map _

/-- Parameters of the right number can be spread. -/
theorem exists_spreads {types among : List EntityType} {parameters : List Parameter}
    (hlength : parameters.length = (types.flatMap (Registry.declaredAttributes among)).length) :
    ∃ groups, Spreads types parameters groups := by
  induction types generalizing parameters with
  | nil =>
    obtain rfl : parameters = [] := List.eq_nil_of_length_eq_zero hlength
    exact ⟨[], .nil⟩
  | cons e rest ih =>
    rw [List.flatMap_cons, List.length_append, Registry.length_declaredAttributes] at hlength
    obtain ⟨groups, hgroups⟩ := @ih (parameters.drop e.attributes.length) (by
      rw [List.length_drop]
      omega)
    have hfirst : (parameters.take e.attributes.length).length = e.attributes.length := by
      rw [List.length_take]
      omega
    have hspreads := @Spreads.cons e rest ⟨e.name, parameters.take e.attributes.length⟩ groups _ rfl
      hfirst hgroups
    rw [List.take_append_drop] at hspreads
    exact ⟨_, hspreads⟩

/-! ## Holding -/

namespace Held

variable {r : Registry} {s : Settings}

/-- Slots are held one after another, so a first row of them may be held apart. -/
theorem ofSlots_append {first second : List Attribute} {parameters more : List Parameter}
    (hlength : parameters.length = first.length) :
    ofSlots r s (first ++ second) (parameters ++ more) =
      (ofSlots r s first parameters).bind fun slots =>
        (ofSlots r s second more).map fun others => slots ++ others := by
  induction first generalizing parameters with
  | nil =>
    obtain rfl : parameters = [] := List.eq_nil_of_length_eq_zero hlength
    change ofSlots r s second more = (ofSlots r s second more).map fun others => others
    cases ofSlots r s second more <;> rfl
  | cons a rest ih =>
    cases parameters with
    | nil => cases hlength
    | cons p parameters =>
      rw [List.cons_append, List.cons_append, ofSlots, ofSlots, ih (Nat.succ.inj hlength)]
      cases ofSlot r s a p with
      | error thrown => rfl
      | ok held =>
        dsimp only
        cases ofSlots r s rest parameters with
        | error thrown => rfl
        | ok slots =>
          change _ = (ofSlots r s second more).map _
          dsimp only [Except.bind]
          cases ofSlots r s second more <;> rfl

end Held

namespace Site

variable {site : Site} {chain : List EntityType}

/-- What is held part by part is what is held for all attributes in a row. -/
theorem slots_holdParts (hsettled : site.registry.Settled chain)
    (hlisted : site.registry.Listed chain) {types : List EntityType} (hsub : types ⊆ chain)
    {parameters : List Parameter} {groups : List Group} (h : Spreads types parameters groups) :
    (site.holdParts chain (types.zip groups)).map (fun held => held.flatMap Prod.snd) =
      Held.ofSlots site.registry site.settings
        (types.flatMap (Registry.declaredAttributes chain)) parameters := by
  induction h with
  | nil => rfl
  | @cons e types group groups parameters hname hlength hrest ih =>
    obtain ⟨he, hsub⟩ := List.cons_subset.mp hsub
    have hcount : group.parameters.length = (Registry.declaredAttributes chain e).length := by
      rw [hlength, Registry.length_declaredAttributes]
    have hpart : site.holdPart e (chain.filter fun other => other.key ≠ e.key) group.parameters =
        Held.ofSlots site.registry site.settings (Registry.declaredAttributes chain e)
          group.parameters := by
      rw [holdPart, Registry.ownAttributes_of_mem hsettled hlisted he]
      dsimp only
      rw [Held.ofGroup, if_pos hcount]
    rw [List.zip_cons_cons, holdParts, hpart, List.flatMap_cons, Held.ofSlots_append hcount,
      ← ih hsub]
    cases Held.ofSlots site.registry site.settings (Registry.declaredAttributes chain e)
      group.parameters with
    | error thrown => rfl
    | ok slots =>
      dsimp only [Except.bind]
      cases site.holdParts chain (types.zip groups) <;> rfl

end Site

/-! ## Instances -/

namespace HeldRecord

variable {r : Registry} {id : Int}

/-- Entities under different names come in the order of their parts. -/
theorem entitiesOnto_eq {entities : Fields Entity}
    {parts : List (EntityType × List (Attribute × Held))}
    (hdistinct : (entities.map Prod.fst ++ parts.map fun part => part.1.key).Nodup) :
    entitiesOnto r id entities parts =
      entities ++ parts.map fun part => (part.1.key, entity r id part.1 part.2) := by
  induction parts generalizing entities with
  | nil => rw [entitiesOnto, List.map_nil, List.append_nil]
  | cons part rest ih =>
    obtain ⟨e, slots⟩ := part
    have hnew : e.key ∉ entities.map Prod.fst := fun hmem =>
      List.disjoint_of_nodup_append hdistinct hmem List.mem_cons_self
    rw [entitiesOnto, Fields.assign_of_not_mem hnew, ih, List.map_cons, List.append_assoc]
    · rfl
    · rw [List.map_append, List.append_assoc]
      exact hdistinct

theorem values_entitiesOnto {parts : List (EntityType × List (Attribute × Held))}
    (hdistinct : (parts.map fun part => part.1.key).Nodup) :
    (entitiesOnto r id [] parts).values = parts.map fun part => entity r id part.1 part.2 := by
  rw [entitiesOnto_eq (by exact hdistinct), List.nil_append, Fields.values, List.map_map]
  rfl

/-- A complex instance has the attributes that its slots make in a row. -/
theorem attributes_entitiesOnto {parts : List (EntityType × List (Attribute × Held))}
    (hdistinct : (parts.map fun part => part.1.key).Nodup) :
    (ComplexEntity.mk id (entitiesOnto r id [] parts)).attributes =
      Held.fieldsOnto [] (parts.flatMap Prod.snd) := by
  have hmerge : ∀ fields : Fields Value,
      (parts.map fun part => entity r id part.1 part.2).foldl
          (fun done part => Fields.merge done part.attributes) fields =
        Held.fieldsOnto fields (parts.flatMap Prod.snd) := by
    clear hdistinct
    intro fields
    induction parts generalizing fields with
    | nil => rfl
    | cons part rest ih =>
      rw [List.map_cons, List.foldl_cons, ih, List.flatMap_cons, Held.fieldsOnto_append]
      congr 1
      exact Held.merge_fieldsOnto Fields.distinct_nil fields part.2
  rw [ComplexEntity.attributes, values_entitiesOnto hdistinct, hmerge]

theorem mem_typeNames_entity {e : EntityType} (he : r.IsRegistered e) (hrooted : r.Rooted e)
    (slots : List (Attribute × Held)) {name : Text} :
    name ∈ (entity r id e slots).typeNames ↔ ∃ f, r.Specializes e f ∧ f.key = name := by
  obtain ⟨names, hnames⟩ := Registry.ancestors_of_rooted hrooted
  rw [entity, hnames]
  exact Registry.mem_ancestors he hnames

/-- The types of a complex instance are those that its parts specialize. -/
theorem mem_typeNames_entitiesOnto {parts : List (EntityType × List (Attribute × Held))}
    (hdistinct : (parts.map fun part => part.1.key).Nodup)
    (hlisted : r.Listed (parts.map Prod.fst)) {name : Text} :
    name ∈ (ComplexEntity.mk id (entitiesOnto r id [] parts)).typeNames ↔
      ∃ e ∈ parts.map Prod.fst, ∃ f, r.Specializes e f ∧ f.key = name := by
  rw [ComplexEntity.typeNames, values_entitiesOnto hdistinct, List.mem_eraseDups,
    List.mem_flatMap]
  simp only [List.mem_map, exists_exists_and_eq_and]
  refine exists_congr fun part => and_congr_right fun hpart => ?_
  obtain ⟨he, hrooted⟩ := hlisted part.1 (List.mem_map_of_mem hpart)
  rw [List.mem_append, mem_typeNames_entity he hrooted, List.mem_singleton]
  refine or_iff_left_of_imp fun hself => ⟨part.1, .refl, hself.symm⟩

end HeldRecord

/-! ## Keywords -/

/-- The groups have the names of the entity types. -/
theorem Spreads.names {types : List EntityType} {parameters : List Parameter}
    {groups : List Group} (h : Spreads types parameters groups) :
    (groups.map Group.keyword).map Text.upper = types.map EntityType.key := by
  induction h with
  | nil => rfl
  | cons hname _ _ ih => rw [List.map_cons, List.map_cons, List.map_cons, hname, ih]

/-- There is a parameter for each attribute. -/
theorem Spreads.length_parameters {types : List EntityType} {parameters : List Parameter}
    {groups : List Group} (h : Spreads types parameters groups) (among : List EntityType) :
    parameters.length = (types.flatMap (Registry.declaredAttributes among)).length := by
  induction h with
  | nil => rfl
  | cons _ hlength _ ih =>
    rw [List.length_append, List.flatMap_cons, List.length_append, hlength, ih,
      Registry.length_declaredAttributes]

theorem Spreads.length_le {types : List EntityType} {parameters : List Parameter}
    {groups : List Group} (h : Spreads types parameters groups) :
    types.length ≤ groups.length := by
  induction h with
  | nil => exact Nat.le_refl _
  | cons _ _ _ ih => exact Nat.succ_le_succ ih

namespace Basis

variable {b : Basis}

theorem blueprint_eq_ok {e : EntityType} (he : b.registry.IsRegistered e) {keyword : Text}
    (hkeyword : keyword.upper = e.key) :
    b.blueprint none keyword = .ok ⟨e, b.makers e.key⟩ := by
  rw [blueprint, Registry.entity?_congr hkeyword, Registry.entity?_of_isRegistered he, hkeyword]

theorem partTypes_eq_ok {types : List EntityType}
    (hregistered : ∀ e ∈ types, b.registry.IsRegistered e) {parameters : List Parameter}
    {groups : List Group} (h : Spreads types parameters groups) :
    b.partTypes none groups = .ok (types.zip groups) := by
  induction h with
  | nil => rfl
  | cons hname _ _ ih =>
    obtain ⟨he, hrest⟩ := List.forall_mem_cons.mp hregistered
    rw [partTypes, blueprint_eq_ok he hname]
    dsimp only
    rw [ih hrest]
    rfl

theorem hold_of_simple {own : Blueprint} {r : Record} {group : Group} (id : Int)
    (hbody : r.body = .simple group) (hown : b.blueprint none group.keyword = .ok own) :
    b.hold none id r =
      ((b.outset id).hold own.definition group.parameters).map (.simple own.definition) := by
  unfold hold
  rw [hbody]
  dsimp only
  rw [hown]
  dsimp only
  cases (b.outset id).hold own.definition group.parameters <;> rfl

theorem hold_of_complex {r : Record} (id : Int) (hcomplex : r.isComplex = true)
    {parts : List (EntityType × Group)} (hparts : b.partTypes none r.groups = .ok parts) :
    b.hold none id r = ((b.outset id).holdParts (parts.map Prod.fst) parts).map .complex := by
  unfold Record.isComplex at hcomplex
  unfold Record.groups at hparts
  unfold hold
  split
  · rename_i group hbody
    rw [hbody] at hcomplex
    cases hcomplex
  · rename_i first others loose hbody
    rw [hbody] at hparts
    dsimp only [Body.groups] at hparts
    rw [hparts]
    dsimp only
    cases (b.outset id).holdParts (parts.map Prod.fst) parts <;> rfl

/-! ## Tests -/

theorem anyOf_eq_ok {α : Type} {test : α → Except SchemaFault Bool} {P : α → Prop}
    {among : List α}
    (h : ∀ a ∈ among, ∃ answer, test a = .ok answer ∧ (answer = true ↔ P a)) :
    ∃ answer, anyOf test among = .ok answer ∧ (answer = true ↔ ∃ a ∈ among, P a) := by
  induction among with
  | nil => exact ⟨false, rfl, by simp⟩
  | cons first rest ih =>
    obtain ⟨⟨answer, hanswer, hiff⟩, hrest⟩ := List.forall_mem_cons.mp h
    rw [anyOf, hanswer, List.exists_mem_cons_iff, ← hiff]
    cases answer with
    | true => exact ⟨true, rfl, by simp⟩
    | false =>
      obtain ⟨answer, hanswer, hiff⟩ := ih hrest
      exact ⟨answer, hanswer, by simp [hiff]⟩

/-- The keyword of a rooted entity type names what this type specializes. -/
theorem keywordIs_eq_ok {e : EntityType} (he : b.registry.IsRegistered e)
    (hrooted : b.registry.Rooted e) {keyword name : Text} (hkeyword : keyword.upper = e.key)
    (hname : name.upper = name) :
    ∃ answer, b.keywordIs none keyword name = .ok answer ∧
      (answer = true ↔ ∃ f, b.registry.Specializes e f ∧ f.key = name) := by
  unfold keywordIs
  split
  · rename_i hsame
    exact ⟨true, rfl, iff_of_true rfl ⟨e, .refl, hkeyword.symm.trans hsame⟩⟩
  · obtain ⟨names, hnames⟩ := Registry.ancestors_of_rooted hrooted
    have hsubtype : b.registry.isSubtype keyword name = .ok (names.contains name) := by
      rw [Registry.isSubtype, Registry.entity?_congr hkeyword,
        Registry.entity?_of_isRegistered he]
      dsimp only
      rw [hnames, hname]
    rw [hsubtype, ← Registry.mem_ancestors he hnames, ← List.contains_iff_mem]
    cases names.contains name with
    | true => exact ⟨true, rfl, Iff.rfl⟩
    | false => exact ⟨false, rfl, Iff.rfl⟩

/-- A record of rooted entity types is of all types that these specialize, and of no others. -/
theorem recordIs_eq_ok {types : List EntityType} (hlisted : b.registry.Listed types) {r : Record}
    (hkeywords : r.keywords.map Text.upper = types.map EntityType.key) {names : List Text}
    (hnames : ∀ name ∈ names, name.upper = name) :
    ∃ answer, b.recordIs none r names = .ok answer ∧
      (answer = true ↔
        ∃ e ∈ types, ∃ f, b.registry.Specializes e f ∧ f.key ∈ names) := by
  have hkeyword : ∀ keyword ∈ r.keywords, ∃ answer,
      anyOf (b.keywordIs none keyword) names = .ok answer ∧ (answer = true ↔
        ∃ e ∈ types, e.key = keyword.upper ∧ ∃ f, b.registry.Specializes e f ∧ f.key ∈ names) := by
    intro keyword hmem
    have hkey : keyword.upper ∈ types.map EntityType.key := hkeywords ▸ List.mem_map_of_mem hmem
    obtain ⟨e, he, hsame⟩ := List.mem_map.mp hkey
    obtain ⟨hregistered, hrooted⟩ := hlisted e he
    obtain ⟨answer, hanswer, hiff⟩ := anyOf_eq_ok fun name hname =>
      keywordIs_eq_ok hregistered hrooted hsame.symm (hnames name hname)
    refine ⟨answer, hanswer, hiff.trans ⟨?_, ?_⟩⟩
    · rintro ⟨name, hname, f, hspecializes, rfl⟩
      exact ⟨e, he, hsame, f, hspecializes, hname⟩
    · rintro ⟨other, hother, hkey, f, hspecializes, hname⟩
      obtain rfl := (hlisted other hother).1.eq_of_key hregistered (hkey.trans hsame.symm)
      exact ⟨f.key, hname, f, hspecializes, rfl⟩
  obtain ⟨answer, hanswer, hiff⟩ := anyOf_eq_ok hkeyword
  refine ⟨answer, hanswer, hiff.trans ⟨?_, ?_⟩⟩
  · rintro ⟨keyword, _, e, he, _, hfound⟩
    exact ⟨e, he, hfound⟩
  · rintro ⟨e, he, hfound⟩
    have hkey : e.key ∈ r.keywords.map Text.upper := hkeywords ▸ List.mem_map_of_mem he
    obtain ⟨keyword, hmem, hsame⟩ := List.mem_map.mp hkey
    exact ⟨keyword, hmem, e, he, hsame.symm, hfound⟩

end Basis

/-! ## The two forms -/

/-- Of two records, one has a single group for an entity type, and the other one the same
parameters spread over the linearization of the type. -/
structure TwoForms (r : Registry) (e : EntityType) (chain : List EntityType)
    (whole split : Record) : Prop where
  registered : r.IsRegistered e
  linearization : r.linearization e = .ok chain
  groups : ∃ group, whole.body = .simple group ∧ group.keyword.upper = e.key ∧
    Spreads chain group.parameters split.groups
  isComplex : split.isComplex = true

namespace TwoForms

variable {b : Basis} {e : EntityType} {chain : List EntityType} {whole split : Record}

variable (h : TwoForms b.registry e chain whole split)

include h

theorem settled : b.registry.Settled chain :=
  (Registry.linearization_eq_ok h.registered h.linearization).1

theorem mem_iff (f : EntityType) : f ∈ chain ↔ b.registry.Specializes e f :=
  (Registry.linearization_eq_ok h.registered h.linearization).2 f

theorem rooted : b.registry.Rooted e := Registry.rooted_of_linearization h.linearization

theorem listed : b.registry.Listed chain := fun f hf =>
  ⟨h.settled.registered f hf, h.rooted.of_specializes ((h.mem_iff f).mp hf)⟩

theorem attributesOf_eq : b.registry.attributesOf e =
    .ok (chain.flatMap (Registry.declaredAttributes chain)) := by
  rw [Registry.attributesOf, h.linearization]

/-- What is specialized by some type of the linearization is specialized by the type itself. -/
theorem exists_specializes (P : EntityType → Prop) :
    (∃ f ∈ chain, ∃ g, b.registry.Specializes f g ∧ P g) ↔
      ∃ g, b.registry.Specializes e g ∧ P g := by
  constructor
  · rintro ⟨f, hf, g, hspecializes, hg⟩
    exact ⟨g, ((h.mem_iff f).mp hf).trans hspecializes, hg⟩
  · rintro ⟨g, hspecializes, hg⟩
    exact ⟨e, (h.mem_iff e).mpr .refl, g, hspecializes, hg⟩

/-- Both forms are held with the same slots, or fail with the same error. -/
theorem hold_cases (id : Int) :
    (∃ thrown, b.hold none id whole = .error thrown ∧ b.hold none id split = .error thrown) ∨
    ∃ parts, parts.map Prod.fst = chain ∧
      b.hold none id whole = .ok (.simple e (parts.flatMap Prod.snd)) ∧
      b.hold none id split = .ok (.complex parts) := by
  obtain ⟨group, hwhole, hkeyword, hspreads⟩ := h.groups
  have htypes : (chain.zip split.groups).map Prod.fst = chain :=
    List.map_fst_zip hspreads.length_le
  have hattributes : (b.outset id).registry.attributesOf e = _ := h.attributesOf_eq
  have hslots : ((b.outset id).holdParts chain (chain.zip split.groups)).map
      (fun held => held.flatMap Prod.snd) = (b.outset id).hold e group.parameters := by
    rw [Site.slots_holdParts h.settled h.listed (List.Subset.refl chain) hspreads, Site.hold,
      hattributes]
    exact (if_pos (hspreads.length_parameters chain)).symm
  rw [Basis.hold_of_simple id hwhole (Basis.blueprint_eq_ok h.registered hkeyword), ← hslots,
    Basis.hold_of_complex id h.isComplex (Basis.partTypes_eq_ok h.settled.registered hspreads),
    htypes]
  cases hparts : (b.outset id).holdParts chain (chain.zip split.groups) with
  | error thrown => exact .inl ⟨thrown, rfl, rfl⟩
  | ok parts => exact .inr ⟨parts, (Site.types_holdParts hparts).trans htypes, rfl, rfl⟩

/-- Both forms become instances with the same attributes. -/
theorem attributes_eq {parts : List (EntityType × List (Attribute × Held))}
    (hparts : parts.map Prod.fst = chain) (id : Int) :
    (ComplexEntity.mk id (HeldRecord.entitiesOnto b.registry id [] parts)).attributes =
      (HeldRecord.entity b.registry id e (parts.flatMap Prod.snd)).attributes := by
  refine HeldRecord.attributes_entitiesOnto ?_
  have hdistinct := h.settled.distinct
  rwa [← hparts, List.map_map] at hdistinct

/-- Both forms become instances of the same types. -/
theorem mem_typeNames {parts : List (EntityType × List (Attribute × Held))}
    (hparts : parts.map Prod.fst = chain) (id : Int) (name : Text) :
    name ∈ (ComplexEntity.mk id (HeldRecord.entitiesOnto b.registry id [] parts)).typeNames ↔
      name ∈ (HeldRecord.entity b.registry id e (parts.flatMap Prod.snd)).typeNames := by
  have hdistinct := h.settled.distinct
  rw [← hparts, List.map_map] at hdistinct
  rw [HeldRecord.mem_typeNames_entitiesOnto hdistinct (hparts ▸ h.listed), hparts,
    HeldRecord.mem_typeNames_entity h.registered h.rooted]
  exact h.exists_specializes fun f => f.key = name

/-- Both forms are of the same types. -/
theorem recordIs_eq {names : List Text} (hnames : ∀ name ∈ names, name.upper = name) :
    b.recordIs none split names = b.recordIs none whole names := by
  obtain ⟨group, hwhole, hkeyword, hspreads⟩ := h.groups
  have hkeywords : whole.keywords.map Text.upper = [e].map EntityType.key := by
    rw [Record.keywords, Record.groups, hwhole]
    exact congrArg (fun key => [key]) hkeyword
  have hself : b.registry.Listed [e] := fun f hf =>
    List.mem_singleton.mp hf ▸ ⟨h.registered, h.rooted⟩
  obtain ⟨answer, hanswer, hiff⟩ := Basis.recordIs_eq_ok hself hkeywords hnames
  obtain ⟨other, hother, hiff'⟩ := Basis.recordIs_eq_ok h.listed hspreads.names hnames
  rw [hanswer, hother, Except.ok.injEq, Bool.eq_iff_iff, hiff, hiff',
    h.exists_specializes fun f => f.key ∈ names]
  simp

end TwoForms

end Part21
