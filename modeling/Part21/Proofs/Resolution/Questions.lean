import Part21.Proofs.Resolution.Filling
import Part21.Proofs.Resolution.Parts
import Part21.Proofs.Resolution.Targets

set_option autoImplicit false

/-!
# Questions about types

Whether an instance is of an entity type is asked in four ways: the records of a type are listed,
a resolved instance answers for itself, an instance is asked for as one of the type, and the target
of a reference is tested.  The first and the last two look at the keywords of the record and at the
registry; the second looks at the names that were stored when the instance was built.

A record is of an entity type if one of its keywords names a type that specializes it
(`Registry.Classifies`).  Each of the four ways decides this relation, also where supertypes lead in
a circle, so they never disagree (`Table.questions_agree`).
-/

namespace Part21

namespace Registry

variable {r : Registry} {record : Record} {name : Text}

/-! ## Registries in which all supertypes are known -/

/-- All supertypes that registered entity types name are registered entity types themselves. -/
def Complete (r : Registry) : Prop :=
  ∀ e, r.IsRegistered e → ∀ name ∈ e.supertypes, ∃ above, r.entity name = .ok above

theorem entity_eq_ok {e : EntityType} : r.entity name = .ok e ↔ r.entity? name = some e := by
  refine ⟨fun h => entity?_eq_some.mpr (find?_of_entity h), fun h => ?_⟩
  rw [entity, get, entity?_eq_some.mp h]

/-- Whether all supertypes are known can be read off the types of the registry. -/
theorem complete_iff : r.Complete ↔ ∀ entry ∈ r.types, ∀ e ∈ entry.2.entity?,
    ∀ name ∈ e.supertypes, (r.entity? name).isSome = true := by
  simp only [Complete, Option.isSome_iff_exists, ← entity_eq_ok]
  constructor
  · intro h entry hentry e he
    apply h e
    obtain ⟨key, t⟩ := entry
    cases t <;> cases he
    exact isRegistered_of_entity? (entity?_eq_some.mpr (find?_of_mem_types hentry))
  · rintro h e ⟨own, he⟩
    exact h _ (mem_types_of_find? (find?_of_entity he)) e rfl

instance : Decidable r.Complete := decidable_of_iff' _ complete_iff

namespace Complete

theorem collectAncestors (h : r.Complete) {steps : Nat} {stack : List EntityType}
    {seen : List Text} (hstack : ∀ e ∈ stack, r.IsRegistered e) :
    ∃ names, r.collectAncestors steps stack seen = .ok names := by
  induction steps generalizing stack seen with
  | zero => exact ⟨seen, rfl⟩
  | succ steps ih =>
    cases stack with
    | nil => exact ⟨seen, rfl⟩
    | cons current stack =>
      obtain ⟨hcurrent, hrest⟩ := List.forall_mem_cons.mp hstack
      unfold Registry.collectAncestors
      split
      · exact ih hrest
      · obtain ⟨above, habove⟩ := exists_supertypes_iff.mpr (h current hcurrent)
        rw [habove]
        apply ih
        intro e he
        rcases List.mem_append.mp he with hnew | hold
        · exact isRegistered_of_declares ((mem_supertypes habove).mp (List.mem_reverse.mp hnew))
        · exact hrest e hold

/-- Entity types have ancestors, even where supertypes lead in a circle. -/
theorem ancestors (h : r.Complete) {e : EntityType} (he : r.IsRegistered e) :
    ∃ names, r.ancestors e = .ok names := by
  apply h.collectAncestors
  simpa using he

/-- The question for subtypes has an answer, which is whether a type specializes the other. -/
theorem isSubtype (h : r.Complete) (sub sup : Text) :
    ∃ answer, r.isSubtype sub sup = .ok answer ∧ (answer = true ↔
      ∃ e, r.entity? sub = some e ∧ ∃ f, r.Specializes e f ∧ f.key = sup.upper) := by
  unfold Registry.isSubtype
  cases hsub : r.entity? sub with
  | none => exact ⟨false, rfl, by simp⟩
  | some e =>
    have he := isRegistered_of_entity? hsub
    obtain ⟨names, hnames⟩ := h.ancestors he
    dsimp only
    rw [hnames]
    refine ⟨_, rfl, ?_⟩
    rw [List.contains_iff_mem, mem_ancestors he hnames]
    simp

end Complete

/-! ## What a record is of -/

/-- A record is of an entity type: one of its keywords names this type or a subtype of it. -/
def Classifies (r : Registry) (record : Record) (name : Text) : Prop :=
  ∃ keyword ∈ record.keywords, ∃ e, r.entity? keyword = some e ∧
    ∃ f, r.Specializes e f ∧ f.key = name.upper

/-- A record of known keywords is of what their types specialize. -/
theorem classifies_iff {types : List EntityType}
    (htypes : record.keywords.map r.entity? = types.map some) :
    r.Classifies record name ↔ ∃ e ∈ types, ∃ f, r.Specializes e f ∧ f.key = name.upper := by
  have hmem : ∀ e, (∃ keyword ∈ record.keywords, r.entity? keyword = some e) ↔ e ∈ types := by
    intro e
    have hsame : some e ∈ record.keywords.map r.entity? ↔ some e ∈ types.map some := by
      rw [htypes]
    simpa using hsame
  constructor
  · rintro ⟨keyword, hkeyword, e, he, hfound⟩
    exact ⟨e, (hmem e).mp ⟨keyword, hkeyword, he⟩, hfound⟩
  · rintro ⟨e, he, hfound⟩
    obtain ⟨keyword, hkeyword, hentity⟩ := (hmem e).mpr he
    exact ⟨keyword, hkeyword, e, hentity, hfound⟩

/-- Known keywords are the names of their types. -/
theorem upper_keywords {types : List EntityType} {keywords : List Text}
    (htypes : keywords.map r.entity? = types.map some) :
    keywords.map Text.upper = types.map EntityType.key := by
  induction keywords generalizing types with
  | nil =>
    obtain rfl : types = [] := List.map_eq_nil_iff.mp htypes.symm
    rfl
  | cons keyword rest ih =>
    cases types with
    | nil => cases htypes
    | cons e others =>
      obtain ⟨hfirst, hrest⟩ := List.cons.inj htypes
      rw [List.map_cons, List.map_cons, ih hrest]
      congr 1
      exact (key_of_find? (entity?_eq_some.mp hfirst)).symm

end Registry

/-! ## What an instance answers -/

/-- The entity types of which a held record has the slots. -/
def HeldRecord.types : HeldRecord → List EntityType
  | simple e _ => [e]
  | complex parts => parts.map Prod.fst

namespace HeldRecord

variable {r : Registry} {id : Int}

/-- A part of every type is among the entities of a complex instance. -/
theorem mem_names_entitiesOnto {entities : Fields Entity}
    {parts : List (EntityType × List (Attribute × Held))} {key : Text} :
    key ∈ (entitiesOnto r id entities parts).map Prod.fst ↔
      key ∈ entities.map Prod.fst ∨ ∃ part ∈ parts, part.1.key = key := by
  induction parts generalizing entities with
  | nil => simp [entitiesOnto]
  | cons part rest ih =>
    have hassign : ∀ entity : Entity, key ∈ (entities.assign part.1.key entity).map Prod.fst ↔
        key ∈ entities.map Prod.fst ∨ part.1.key = key := by
      intro entity
      rw [Fields.names_assign]
      split
      · rename_i hold
        exact ⟨.inl, fun h => h.elim (fun hmem => hmem) fun hsame => hsame ▸ hold⟩
      · rw [List.mem_append, List.mem_singleton, eq_comm]
    rw [entitiesOnto, ih, hassign, List.exists_mem_cons_iff, or_assoc]

/-- An entity is of the types that its own type specializes. -/
theorem hasType_entity {e : EntityType} (he : r.IsRegistered e) (hrooted : r.Rooted e)
    (slots : List (Attribute × Held)) (name : Text) :
    (entity r id e slots).hasType name = true ↔ ∃ f, r.Specializes e f ∧ f.key = name.upper := by
  rw [Entity.hasType, Bool.or_eq_true, List.contains_iff_mem, decide_eq_true_eq,
    mem_typeNames_entity he hrooted]
  exact or_iff_left_of_imp fun hself => ⟨e, .refl, hself.symm⟩

/-- An instance is of the types that the types of its record specialize. -/
theorem hasType_toInstance {held : HeldRecord} (hlisted : r.Listed held.types) (name : Text) :
    ∃ answer, (held.toInstance r id).hasType name = .ok answer ∧ (answer = true ↔
      ∃ e ∈ held.types, ∃ f, r.Specializes e f ∧ f.key = name.upper) := by
  cases held with
  | simple e slots =>
    obtain ⟨he, hrooted⟩ := hlisted e (List.mem_singleton_self e)
    exact ⟨_, rfl, by rw [hasType_entity he hrooted]; simp [types]⟩
  | complex parts =>
    refine ⟨_, rfl, ?_⟩
    have hpart : ∀ part ∈ parts, r.IsRegistered part.1 ∧ r.Rooted part.1 := fun part hmem =>
      hlisted part.1 (List.mem_map_of_mem hmem)
    rw [ComplexEntity.hasType, List.any_eq_true]
    constructor
    · rintro ⟨entity, hentity, hasType⟩
      obtain ⟨field, hfield, rfl⟩ := List.mem_map.mp hentity
      rcases Basis.mem_entitiesOnto Fields.distinct_nil hfield with hnone | ⟨part, hmem, rfl⟩
      · cases hnone
      · obtain ⟨he, hrooted⟩ := hpart part hmem
        exact ⟨part.1, List.mem_map_of_mem hmem, (hasType_entity he hrooted _ _).mp hasType⟩
    · rintro ⟨e, he, hfound⟩
      obtain ⟨part, hmem, rfl⟩ := List.mem_map.mp he
      -- A part is replaced by a later one of the same type only.
      have hname : part.1.key ∈ (entitiesOnto r id [] parts).map Prod.fst :=
        mem_names_entitiesOnto.mpr (.inr ⟨part, hmem, rfl⟩)
      obtain ⟨field, hfield, hkey⟩ := List.mem_map.mp hname
      rcases Basis.mem_entitiesOnto Fields.distinct_nil hfield with hnone | ⟨other, hother, rfl⟩
      · cases hnone
      · have hsame : other.1 = part.1 := (hpart other hother).1.eq_of_key (hpart part hmem).1 hkey
        obtain ⟨he, hrooted⟩ := hpart other hother
        exact ⟨_, List.mem_map_of_mem hfield,
          (hasType_entity he hrooted _ _).mpr (hsame ▸ hfound)⟩

end HeldRecord

namespace Basis

variable {b : Basis} {id : Int} {r : Record} {held : HeldRecord}

/-- The keywords of a record that is held name the types of which it has the slots. -/
theorem keywords_of_hold (h : b.hold none id r = .ok held) :
    r.keywords.map b.registry.entity? = held.types.map some := by
  cases held with
  | simple e slots =>
    obtain ⟨group, own, hbody, hown, rfl, _⟩ := hold_simple_eq_ok h
    rw [Record.keywords, Record.groups, hbody]
    exact congrArg (fun e => [e]) (entity?_of_blueprint hown)
  | complex parts =>
    obtain ⟨first, others, loose, typed, hbody, htyped, hparts⟩ := hold_complex_eq_ok h
    rw [HeldRecord.types, Site.types_holdParts hparts, ← entity?_of_partTypes htyped,
      Record.keywords, Record.groups, hbody]
    rfl

theorem rooted_of_types (h : b.hold none id r = .ok held) :
    ∀ e ∈ held.types, b.registry.Rooted e := by
  cases held with
  | simple e slots =>
    obtain ⟨_, _, _, _, _, hslots⟩ := hold_simple_eq_ok h
    intro own hown
    exact List.mem_singleton.mp hown ▸ Site.rooted_of_hold hslots
  | complex parts =>
    obtain ⟨_, _, _, _, _, _, hparts⟩ := hold_complex_eq_ok h
    intro e he
    obtain ⟨part, hpart, rfl⟩ := List.mem_map.mp he
    exact Site.rooted_of_holdParts hparts part hpart

theorem listed_of_hold (h : b.hold none id r = .ok held) : b.registry.Listed held.types := by
  intro e he
  refine ⟨?_, rooted_of_types h e he⟩
  have hmem : some e ∈ r.keywords.map b.registry.entity? :=
    keywords_of_hold h ▸ List.mem_map_of_mem he
  obtain ⟨keyword, _, hkeyword⟩ := List.mem_map.mp hmem
  exact Registry.isRegistered_of_entity? hkeyword

/-! ## What the table answers -/

/-- A test that always has an answer selects the records of which it holds. -/
theorem selectRecords_eq_ok {sought : Text} {withSubtypes : Bool} {P : Text → Prop}
    (htest : ∀ keyword, ∃ answer, b.keywordMatches sought withSubtypes keyword = .ok answer ∧
      (answer = true ↔ P keyword)) (records : List Record) :
    ∃ listed, b.selectRecords sought withSubtypes records = .ok listed ∧
      ∀ r, r ∈ listed ↔ r ∈ records ∧ ∃ keyword ∈ r.keywords, P keyword := by
  induction records with
  | nil => exact ⟨[], rfl, by simp⟩
  | cons first rest ih =>
    obtain ⟨chosen, hchosen, hiff⟩ :=
      @anyOf_eq_ok _ _ P first.keywords fun keyword _ => htest keyword
    obtain ⟨others, hothers, hmem⟩ := ih
    refine ⟨if chosen then first :: others else others, ?_, fun r => ?_⟩
    · rw [selectRecords, hchosen]
      dsimp only
      rw [hothers]
    · cases chosen with
      | true =>
        have hfirst := hiff.mp rfl
        simp only [if_true, List.mem_cons, hmem]
        refine ⟨fun h => h.elim ?_ fun h => ⟨.inr h.1, h.2⟩, fun h => h.1.imp_right (⟨·, h.2⟩)⟩
        rintro rfl
        exact ⟨.inl rfl, hfirst⟩
      | false =>
        simp only [Bool.false_eq_true, if_false, List.mem_cons, hmem]
        refine ⟨fun h => ⟨.inr h.1, h.2⟩, fun h => ⟨h.1.resolve_left ?_, h.2⟩⟩
        rintro rfl
        exact absurd (hiff.mpr h.2) (by simp)

/-- Of the records of known keywords, those of a type are listed. -/
theorem mem_recordsOfType (hcomplete : b.registry.Complete) (sought : Text) :
    ∃ listed, b.recordsOfType sought true = .ok listed ∧ ∀ r ∈ b.population.records,
      (∀ keyword ∈ r.keywords, (b.registry.entity? keyword).isSome) →
        (r ∈ listed ↔ b.registry.Classifies r sought) := by
  have htest : ∀ keyword, ∃ answer, b.keywordMatches sought true keyword = .ok answer ∧
      (answer = true ↔ keyword = sought.upper ∨ ∃ e, b.registry.entity? keyword = some e ∧
        ∃ f, b.registry.Specializes e f ∧ f.key = sought.upper) := by
    intro keyword
    unfold keywordMatches
    by_cases hsame : keyword = sought.upper
    · exact ⟨true, by rw [if_pos hsame], iff_of_true rfl (.inl hsame)⟩
    · obtain ⟨answer, hanswer, hiff⟩ := hcomplete.isSubtype keyword sought
      refine ⟨answer, ?_, hiff.trans (or_iff_right hsame).symm⟩
      rw [if_neg hsame, if_pos rfl, hanswer]
  obtain ⟨listed, hlisted, hmem⟩ := b.selectRecords_eq_ok htest b.population.records
  refine ⟨listed, hlisted, fun r hr hknown => ?_⟩
  rw [hmem, and_iff_right hr]
  refine exists_congr fun keyword => and_congr_right fun hkeyword => or_iff_right_of_imp ?_
  rintro rfl
  obtain ⟨e, he⟩ := Option.isSome_iff_exists.mp (hknown _ hkeyword)
  have hkey : e.key = sought.upper.upper :=
    Registry.key_of_find? (Registry.entity?_eq_some.mp he)
  exact ⟨e, he, e, .refl, hkey.trans (Text.upper_upper sought)⟩

/-- The test of a record that is held tells whether it is of the type. -/
theorem recordIs_of_hold (h : b.hold none id r = .ok held) (name : Text) :
    ∃ answer, b.recordIs none r [name.upper] = .ok answer ∧
      (answer = true ↔ b.registry.Classifies r name) := by
  have hkeywords := keywords_of_hold h
  have hupper : ∀ own ∈ [name.upper], own.upper = own := by simp [Text.upper_upper]
  obtain ⟨answer, hanswer, hiff⟩ :=
    recordIs_eq_ok (listed_of_hold h) (Registry.upper_keywords hkeywords) hupper
  refine ⟨answer, hanswer, hiff.trans ?_⟩
  rw [Registry.classifies_iff hkeywords]
  simp

end Basis

namespace Table

variable {registry : Registry} {settings : Settings} {t : Table}

/-- The error of an instance that is not of the type it is asked for as. -/
def notOfType (id : Int) (r : Record) (name : Text) : ResolutionError :=
  ⟨.mismatch none name.upper r.keywordText, ⟨some id, [id], ⟨r.offset, r.line, none⟩⟩, [], none⟩

/-- To ask for a resolved instance as one of a type is to test its record. -/
theorem resolve_typeName {id : Int} {value : Instance} (hvalue : (t.resolve id none).1 = .ok value)
    {r : Record} (hr : t.basis.population.find? id = some r) {name : Text} {answer : Bool}
    (htest : t.basis.recordIs none r [name.upper] = .ok answer) :
    (t.resolve id (some (.typeName name))).1 =
        (if answer then .ok value else .error (.resolution (notOfType id r name))) ∧
      (t.resolve id (some (.typeName name))).2.standing id = .resolved value := by
  rw [resolve_none_fst] at hvalue
  constructor
  · unfold resolve
    rw [Option.bind_some, Expected.brought?]
    rcases hpass : t.basis.resolve none id t.progress with ⟨outcome, p⟩
    rw [hpass] at hvalue
    cases hvalue
    dsimp only
    rw [checkExpected]
    dsimp only
    rw [hr]
    dsimp only [Expected.name, Expected.brought?]
    rw [htest]
    cases answer <;> rfl
  · rw [resolve_snd]
    exact Basis.standing_of_enter_ok (Prod.ext hvalue rfl)

/-- To follow a reference to an entity type is to test the record of its target. -/
theorem checkTarget_entity {b : Basis} {brought : Option Blueprint}
    (hknows : b.registry.Knows brought) {id : Int} {r : Record} {e : EntityType} {answer : Bool}
    (htest : b.recordIs none r [e.key] = .ok answer) (place : Text) :
    b.checkTarget brought id r (.entity e) place =
      if answer then .ok ()
      else .error (.reason (.mismatch (some place) ("reference to " ++ e.key)
        ("#" ++ Text.ofInt id ++ " " ++ r.keywordText))) := by
  have hsame : b.checkTarget brought id r (.entity e) place =
      b.checkTarget none id r (.entity e) place := by
    cases brought with
    | none => rfl
    | some own => exact Basis.checkTarget_of_registered (hknows own rfl) id r _ place
  have hallowed : b.allowed (.entity e) = .ok [e.key] := rfl
  rw [hsame, Basis.checkTarget, hallowed]
  dsimp only
  rw [htest]
  cases answer with
  | true => rfl
  | false =>
    have hsorted : Text.sorted [e.key].eraseDups = [e.key] := by
      simp [List.eraseDups_cons, Text.sorted]
    rw [hsorted]
    rfl

/-- A reference where an entity type is declared is held to be followed to this type. -/
theorem ofParameter_reference {registry : Registry} {e : EntityType} {name : Text}
    (he : registry.entity name = .ok e) {type : TypeDef} (htype : type = .entity e ∨
      ∃ other, other.upper = name.upper ∧ type = .ref other) (settings : Settings) (place : Text)
    (id : Int) :
    Held.ofParameter registry settings place type (.reference id) =
      .ok (.reference id (.entity e) place) := by
  have hground : registry.ground none type = .ok (.type (.entity e)) := by
    rcases htype with rfl | ⟨other, hother, rfl⟩
    · rfl
    · rw [Registry.ground, Registry.referenceLimit, Registry.groundWithin,
        Registry.groundThrough, Registry.find?_congr hother, Registry.find?_of_entity he]
      cases registry.types.length <;> rfl
  simp [Held.ofParameter, hground, Held.whole]

/-- All questions about types have the same answer.  Let a session go on at a table with default
holders and without factories, over a registry in which all supertypes are known, and let only
registered entity types be brought along in it.  For an instance that is resolved to a value and a
name in any letter case there is one answer, whether its record is of the type of that name.  It is
what the value answers for itself.  The record is among those of the type and its subtypes just if
the answer is yes; just then the value is given where the instance is asked for as one of the type,
and just then references to it pass where the type is declared.  Where it is no, both fail with an
error that says so, and the instance stands resolved all the same. -/
theorem questions_agree {requests : List Request}
    (hregistered : ∀ q ∈ requests, q.Expects (Registered registry))
    (hcomplete : registry.Complete)
    (ht : (empty registry .initial settings).session requests = t) {id : Int} {value : Instance}
    (hvalue : (t.resolve id none).1 = .ok value) (name : Text) :
    ∃ r answer, t.basis.population.find? id = some r ∧
      (answer = true ↔ registry.Classifies r name) ∧
      value.hasType name = .ok answer ∧
      (∃ listed, t.basis.recordsOfType name true = .ok listed ∧ (r ∈ listed ↔ answer = true)) ∧
      (t.resolve id (some (.typeName name))).1 =
        (if answer then .ok value else .error (.resolution (notOfType id r name))) ∧
      (t.resolve id (some (.typeName name))).2.standing id = .resolved value ∧
      ∀ e, registry.entity name = .ok e →
        ∀ type, (type = .entity e ∨ ∃ other, other.upper = name.upper ∧ type = .ref other) →
        ∀ brought, registry.Knows brought → ∀ place,
          Held.ofParameter registry settings place type (.reference id) =
            .ok (.reference id (.entity e) place) ∧
          t.basis.checkTarget brought id r (.entity e) place =
            if answer then .ok ()
            else .error (.reason (.mismatch (some place) ("reference to " ++ e.key)
              ("#" ++ Text.ofInt id ++ " " ++ r.keywordText))) := by
  have hstart : (empty registry .initial settings).Tested registry settings :=
    ⟨plain_empty registry settings, .of_untouched fun _ => rfl⟩
  have htested := hstart.session hregistered
  rw [ht] at htested
  have hregistry := htested.plain.registry
  -- What is resolved is what its record was held as.
  have hnone : Registered registry none := fun _ hown => by cases hown
  have hafter := htested.resolve id hnone
  have hstanding : (t.resolve id none).2.standing id = .resolved value := by
    rw [resolve_none_fst] at hvalue
    rw [resolve_snd]
    exact Basis.standing_of_enter_ok (Prod.ext hvalue rfl)
  obtain ⟨r, held, hr, hheld, hmade, _⟩ := hafter.found.resolved hstanding
  rw [basis_resolve] at hr hheld hmade
  subst hmade
  obtain ⟨answer, htest, hiff⟩ := Basis.recordIs_of_hold hheld name
  obtain ⟨own, hown, hiff'⟩ :=
    @HeldRecord.hasType_toInstance _ id held (Basis.listed_of_hold hheld) name
  rw [← Registry.classifies_iff (Basis.keywords_of_hold hheld), ← hiff, ← Bool.eq_iff_iff] at hiff'
  obtain ⟨listed, hlisted, hmem⟩ := Basis.mem_recordsOfType (hregistry ▸ hcomplete) name
  have hrecord : r ∈ t.basis.population.records :=
    List.mem_map_of_mem (Population.find?_eq_some.mp hr)
  obtain ⟨hanswer, hresolved⟩ := resolve_typeName hvalue hr htest
  refine ⟨r, answer, hr, hregistry ▸ hiff, hiff' ▸ hown,
    ⟨listed, hlisted, (hmem r hrecord (Basis.known_of_hold hheld)).trans hiff.symm⟩,
    hanswer, hresolved, ?_⟩
  intro e he type htype brought hknows place
  refine ⟨ofParameter_reference he htype settings place id, ?_⟩
  rw [← hregistry] at hknows
  apply checkTarget_entity hknows
  have hkey : e.key = name.upper := Registry.key_of_find? (Registry.find?_of_entity he)
  rw [hkey]
  exact htest

end Table

/-! ## A sample -/

namespace Sample

/-- An entity type without attributes. -/
def tool : EntityType := ⟨"TOOL", [], [], false, []⟩

/-- A subtype of it. -/
def gadget : EntityType := ⟨"GADGET", [], ["tool"], false, []⟩

/-- A registry of both, and of two types of which each is a supertype of the other. -/
def toolRegistry : Registry :=
  [tool, gadget, ⟨"EGG", [], ["HEN"], false, []⟩, ⟨"HEN", [], ["EGG"], false, []⟩].foldl
    (fun r e => (r.register (.entity e) false).toOption.getD r) (.initial "tools")

/-- A gadget that is written part by part, and a record that cannot be resolved. -/
def tools : List Request :=
  [.add ⟨some 1, .complex ⟨"GADGET", []⟩ [] [], none, none⟩,
    .add ⟨some 2, .simple ⟨"EGG", []⟩, none, none⟩]

/-- The table behind these requests. -/
def toolTable : Table := (Table.empty toolRegistry .initial .default).session tools

end Sample

namespace Table

theorem questions_agree_tools :
    Sample.toolRegistry.Complete ∧ ∃ value,
      (Sample.toolTable.resolve 1 none).1 = .ok value ∧
      value.hasType "Tool" = .ok true ∧
      (Sample.toolTable.resolve 1 (some (.typeName "Tool"))).1 = .ok value ∧
      value.hasType "egg" = .ok false ∧
      (Sample.toolTable.resolve 1 (some (.typeName "egg"))).2.standing 1 = .resolved value := by
  have hcomplete : Sample.toolRegistry.Complete := by decide +kernel
  have hregistered : ∀ q ∈ Sample.tools, q.Expects (Registered Sample.toolRegistry) := by
    simp [Sample.tools, Request.Expects]
  refine ⟨hcomplete, ?_⟩
  have hok : (Sample.toolTable.resolve 1 none).1.isOk = true := by decide +kernel
  have hrefused : (Sample.toolTable.resolve 1 (some (.typeName "egg"))).1.isOk = false := by
    decide +kernel
  cases hvalue : (Sample.toolTable.resolve 1 none).1 with
  | error thrown =>
    rw [hvalue] at hok
    cases hok
  | ok value =>
    obtain ⟨r, answer, hr, hiff, htype, _, hanswer, _⟩ :=
      questions_agree (t := Sample.toolTable) hregistered hcomplete rfl hvalue "Tool"
    obtain ⟨_, other, _, _, htype', _, hanswer', hstanding, _⟩ :=
      questions_agree (t := Sample.toolTable) hregistered hcomplete rfl hvalue "egg"
    have hyes : answer = true := by
      refine hiff.mpr ?_
      obtain rfl := Option.some.inj hr
      exact ⟨"GADGET", List.mem_singleton_self _, Sample.gadget, rfl, Sample.tool,
        .single ⟨"tool", List.mem_singleton_self _, rfl⟩, rfl⟩
    have hno : other = false := by
      cases other with
      | false => rfl
      | true =>
        rw [hanswer'] at hrefused
        cases hrefused
    subst hyes hno
    exact ⟨value, rfl, htype, hanswer, htype', hstanding⟩

end Table

end Part21
