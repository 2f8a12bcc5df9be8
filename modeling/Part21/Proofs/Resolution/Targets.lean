import Part21.Proofs.Resolution.Fields
import Part21.Proofs.Resolution.Outcome
import Part21.Proofs.Resolution.Slots
import Part21.Proofs.Schema.Options
import Part21.Proofs.Schema.Supertypes

set_option autoImplicit false

/-!
# Targets of references

The declared type of an attribute says what stands at each place inside its value: behind
references and defined types there is an aggregate, with a type for its elements, a select, with
the types that it offers, or a type of which instances are.  A value is accepted if each
reference in it, however deep, leads to a record that meets the type at its place
(`Value.Accepted`).

Whatever is resolved is made of accepted values: a reference is tested when it is followed, and
also when it is left to be followed later, and the test of a record against a type depends on
nothing but the schema and the keywords of the record.  The main statement is
`Table.targets_accepted`.
-/

namespace Part21

/-! ## Records that meet types -/

namespace Registry

/-- A keyword is the name of an entity type, or names one of its subtypes. -/
def Names (r : Registry) (keyword : Text) (e : EntityType) : Prop :=
  keyword.upper = e.key ∨
    ∃ sub sup, r.entity? keyword = some sub ∧ r.Specializes sub sup ∧ sup.key = e.key

/-- Some keyword of a record names an entity type or one of its subtypes: the type asked for, or
an entity type that the select asked for offers. -/
def Meets (r : Registry) (target : Record) : TypeDef → Prop
  | .entity e => ∃ keyword ∈ target.keywords, r.Names keyword e
  | .select _ options =>
    ∃ e, r.OffersEntity options e ∧ ∃ keyword ∈ target.keywords, r.Names keyword e
  | _ => False

end Registry

namespace Basis

variable {b : Basis}

/-- There is a record of that name, and it meets the type. -/
def Satisfies (b : Basis) (t : TypeDef) (id : Int) : Prop :=
  ∃ target, b.population.find? id = some target ∧ b.registry.Meets target t

/-- Only where instances are asked for can a record be what is asked for. -/
theorem Satisfies.isGround {t : TypeDef} {id : Int} (h : b.Satisfies t id) :
    t.isGround = true := by
  obtain ⟨target, _, hmeets⟩ := h
  cases t with
  | entity e => rfl
  | select name options => rfl
  | _ => exact hmeets.elim

theorem exists_of_anyOf {α : Type} {test : α → Except SchemaFault Bool} {among : List α}
    (h : anyOf test among = .ok true) : ∃ a ∈ among, test a = .ok true := by
  induction among with
  | nil => cases h
  | cons first rest ih =>
    unfold anyOf at h
    split at h
    · cases h
    · rename_i hfirst
      exact ⟨first, List.mem_cons_self, hfirst⟩
    · obtain ⟨a, hmem, ha⟩ := ih h
      exact ⟨a, List.mem_cons_of_mem first hmem, ha⟩

theorem names_of_keywordIs {keyword : Text} {e : EntityType}
    (h : b.keywordIs none keyword e.key = .ok true) : b.registry.Names keyword e := by
  unfold keywordIs at h
  split at h
  · rename_i hsame
    exact .inl hsame
  · split at h
    · cases h
    · rename_i hsub
      unfold Registry.isSubtype at hsub
      split at hsub
      · cases hsub
      · rename_i sub hsubtype
        split at hsub
        · cases hsub
        · rename_i names hnames
          have hmem := List.contains_iff_mem.mp (Except.ok.inj hsub)
          obtain ⟨sup, hspecializes, hkey⟩ := Registry.specializes_of_ancestors hnames hmem
          exact .inr ⟨sub, sup, hsubtype, hspecializes, hkey.trans (Text.upper_upper _)⟩
    · cases h

/-- A record of which the test was passed names one of the entity types it was tested for. -/
theorem names_of_recordIs {target : Record} {names : List Text}
    (h : b.recordIs none target names = .ok true) :
    ∃ name ∈ names, ∀ e : EntityType, e.key = name →
      ∃ keyword ∈ target.keywords, b.registry.Names keyword e := by
  obtain ⟨keyword, hkeyword, hnames⟩ := exists_of_anyOf h
  obtain ⟨name, hname, htest⟩ := exists_of_anyOf hnames
  refine ⟨name, hname, fun e he => ⟨keyword, hkeyword, names_of_keywordIs ?_⟩⟩
  rw [he]
  exact htest

theorem recordIs_of_checkTarget {id : Int} {target : Record} {t : TypeDef} {place : Text}
    (h : b.checkTarget none id target t place = .ok ()) :
    ∃ names, b.allowed t = .ok names ∧ b.recordIs none target names = .ok true := by
  unfold checkTarget at h
  split at h
  · cases h
  · rename_i names hnames
    split at h
    · cases h
    · rename_i htrue
      exact ⟨names, hnames, htrue⟩
    · cases h

theorem meets_entity_of_checkTarget {id : Int} {target : Record} {e : EntityType} {place : Text}
    (h : b.checkTarget none id target (.entity e) place = .ok ()) :
    b.registry.Meets target (.entity e) := by
  obtain ⟨names, hnames, htrue⟩ := recordIs_of_checkTarget h
  obtain ⟨name, hname, hmeets⟩ := names_of_recordIs htrue
  cases hnames
  exact hmeets e (List.mem_singleton.mp hname).symm

theorem meets_select_of_checkTarget {id : Int} {target : Record} {name : Text}
    {options : List Text} {place : Text}
    (h : b.checkTarget none id target (.select name options) place = .ok ()) :
    b.registry.Meets target (.select name options) := by
  obtain ⟨names, hnames, htrue⟩ := recordIs_of_checkTarget h
  obtain ⟨own, hown, hmeets⟩ := names_of_recordIs htrue
  obtain ⟨e, hoffers, hkey⟩ := Registry.offersEntity_of_selectEntities hnames hown
  exact ⟨e, hoffers, hmeets e hkey⟩

end Basis

/-! ## Values of declared types -/

namespace Value

/-- The value has no parts and refers to nothing. -/
def isPlain : Value → Bool
  | reference _ => false
  | typed _ _ => false
  | list _ => false
  | _ => true

/-- Every reference inside a value of a declared type is accepted at the type that its place
has. -/
inductive Accepted (r : Registry) (accepts : TypeDef → Int → Prop) : TypeDef → Value → Prop
  | plain {t : TypeDef} {v : Value} (hplain : v.isPlain = true) : Accepted r accepts t v
  | reference {t u : TypeDef} {id : Int} (hstands : r.StandsFor t u) (haccepts : accepts u id) :
      Accepted r accepts t (.reference id)
  | typed {t option : TypeDef} {name : Text} {options : List Text} {v : Value}
      (hstands : r.StandsFor t (.select name options)) (hoffers : r.Offers options option)
      (hvalue : Accepted r accepts option v) : Accepted r accepts t (.typed option.key v)
  | list {t element : TypeDef} {name : Text} {kind : AggregateKind} {lower : Int}
      {upper : Option Int} {items : List Value}
      (hstands : r.StandsFor t (.aggregate name element kind lower upper))
      (hitems : ∀ v ∈ items, Accepted r accepts element v) : Accepted r accepts t (.list items)

/-- What is accepted at a type is accepted at all that stand for it. -/
theorem Accepted.of_standsFor {r : Registry} {accepts : TypeDef → Int → Prop} {t u : TypeDef}
    {v : Value} (h : Accepted r accepts u v) (hstands : r.StandsFor t u) :
    Accepted r accepts t v := by
  cases h with
  | plain hplain => exact .plain hplain
  | reference hfurther haccepts => exact .reference (hstands.trans hfurther) haccepts
  | typed hfurther hoffers hvalue => exact .typed (hstands.trans hfurther) hoffers hvalue
  | list hfurther hitems => exact .list (hstands.trans hfurther) hitems

/-- Inside a value of a declared type there is a reference, at a place that has the other type. -/
inductive Holds (r : Registry) : TypeDef → Value → TypeDef → Int → Prop
  | reference {t u : TypeDef} {id : Int} (hstands : r.StandsFor t u) (hground : u.isGround = true) :
      Holds r t (.reference id) u id
  | typed {t option u : TypeDef} {name : Text} {options : List Text} {v : Value} {id : Int}
      (hstands : r.StandsFor t (.select name options)) (hoffers : r.Offers options option)
      (hholds : Holds r option v u id) : Holds r t (.typed option.key v) u id
  | list {t element u : TypeDef} {name : Text} {kind : AggregateKind} {lower : Int}
      {upper : Option Int} {items : List Value} {v : Value} {id : Int}
      (hstands : r.StandsFor t (.aggregate name element kind lower upper)) (hmem : v ∈ items)
      (hholds : Holds r element v u id) : Holds r t (.list items) u id

/-! The declared type determines what is asked of each part of a value, so what is accepted is
accepted at whatever type its place has. -/

section Parts

variable {r : Registry} {accepts : TypeDef → Int → Prop} {t : TypeDef} {name : Text}

theorem accepted_typed_iff {option : TypeDef} {options : List Text} {v : Value}
    (hstands : r.StandsFor t (.select name options)) (hoffers : r.Offers options option) :
    (typed option.key v).Accepted r accepts t ↔ v.Accepted r accepts option := by
  refine ⟨fun h => ?_, .typed hstands hoffers⟩
  generalize hvalue : typed option.key v = value at h
  cases h with
  | plain hplain =>
    rw [← hvalue] at hplain
    cases hplain
  | reference _ _ => cases hvalue
  | list _ _ => cases hvalue
  | typed _ hown haccepted =>
    obtain ⟨hkey, rfl⟩ := Value.typed.inj hvalue
    exact hoffers.eq_of_key hown hkey ▸ haccepted

theorem accepted_list_iff {element : TypeDef} {kind : AggregateKind} {lower : Int}
    {upper : Option Int} {items : List Value}
    (hstands : r.StandsFor t (.aggregate name element kind lower upper)) :
    (list items).Accepted r accepts t ↔ ∀ v ∈ items, v.Accepted r accepts element := by
  refine ⟨fun h => ?_, .list hstands⟩
  cases h with
  | plain hplain => cases hplain
  | list hown hitems =>
    cases hown.unique hstands rfl rfl
    exact hitems

theorem accepted_reference_iff {u : TypeDef} {id : Int} (hstands : r.StandsFor t u)
    (hground : u.isGround = true) (haccepts : ∀ own id, accepts own id → own.isGround = true) :
    (reference id).Accepted r accepts t ↔ accepts u id := by
  refine ⟨fun h => ?_, .reference hstands⟩
  cases h with
  | plain hplain => cases hplain
  | reference hown hid => exact hown.unique hstands (haccepts _ _ hid) hground ▸ hid

theorem Accepted.of_holds {u : TypeDef} {v : Value} {id : Int} (h : v.Accepted r accepts t)
    (hholds : v.Holds r t u id) (haccepts : ∀ own id, accepts own id → own.isGround = true) :
    accepts u id := by
  induction hholds with
  | reference hstands hground => exact (accepted_reference_iff hstands hground haccepts).mp h
  | typed hstands hoffers _ ih => exact ih ((accepted_typed_iff hstands hoffers).mp h)
  | list hstands hmem _ ih => exact ih ((accepted_list_iff hstands).mp h _ hmem)

end Parts

end Value

namespace Registry

variable {r : Registry}

theorem standsFor_of_groundThrough {sought : Option Text} {follow : Text → Except Failure Ground}
    (hfollow : ∀ name ground, follow name = .ok ground → r.StandsFor (.ref name) ground.target)
    {t : TypeDef} {ground : Ground} (h : groundThrough sought follow t = .ok ground) :
    r.StandsFor t ground.target := by
  match t with
  | .ref name => exact hfollow name ground h
  | .defined name underlying =>
    rw [groundThrough] at h
    split at h
    · cases h
      exact .single (.defined name underlying)
    · exact .head (.defined name underlying) (standsFor_of_groundThrough hfollow h)
  | .plain _ | .simple _ | .enumeration _ _ | .select _ _ | .aggregate _ _ _ _ _ | .entity _ =>
    cases h
    exact .refl

theorem standsFor_of_groundWithin {sought : Option Text} {references : Nat} {t : TypeDef}
    {ground : Ground} (h : r.groundWithin sought references t = .ok ground) :
    r.StandsFor t ground.target := by
  induction references generalizing t ground with
  | zero => exact standsFor_of_groundThrough (fun _ _ hnone => by cases hnone) h
  | succ references ih =>
    refine standsFor_of_groundThrough (fun name own hown => ?_) h
    split at hown
    · rename_i next hnext
      exact .head (.ref hnext) (ih hown)
    · cases hown

/-- The way through references and defined types leads to what a type stands for. -/
theorem standsFor_of_ground {sought : Option Text} {t : TypeDef} {ground : Ground}
    (h : r.ground sought t = .ok ground) : r.StandsFor t ground.target :=
  standsFor_of_groundWithin h

end Registry

/-! ## Held values -/

namespace Basis

variable {b : Basis} {place : Text}

/-- A link leads to a record that passes its test. -/
def Tested (b : Basis) (l : Link) : Prop :=
  ∃ target, b.population.find? l.target = some target ∧
    b.checkTarget none l.target target l.expected l.place = .ok ()

theorem satisfies_entity_of_tested {id : Int} {e : EntityType}
    (h : b.Tested ⟨id, .entity e, place⟩) : b.Satisfies (.entity e) id :=
  h.imp fun _ => And.imp_right meets_entity_of_checkTarget

theorem satisfies_select_of_tested {id : Int} {name : Text} {options : List Text}
    (h : b.Tested ⟨id, .select name options, place⟩) : b.Satisfies (.select name options) id :=
  h.imp fun _ => And.imp_right meets_select_of_checkTarget

end Basis

namespace Held

variable {b : Basis} {place : Text}

theorem isPlain_of_simple {s : Settings} {type : SimpleType} {p : Parameter} {v : Value}
    (h : simple s place type p = .ok v) : v.isPlain = true := by
  unfold simple mismatch at h
  repeat' split at h
  all_goals cases h
  all_goals rfl

theorem isPlain_of_item {s : Settings} {name : Text} {items : List Text} {p : Parameter} {v : Value}
    (h : item s place name items p = .ok v) : v.isPlain = true := by
  unfold item mismatch at h
  repeat' split at h
  all_goals cases h
  all_goals rfl

/-- A parameter that is taken as a whole is accepted, if its link passes the test. -/
theorem accepted_whole {t : TypeDef} {p : Parameter} {held : Held}
    (h : whole b.settings place t p = .ok held) (htested : ∀ l ∈ held.links, b.Tested l) :
    held.toValue.Accepted b.registry b.Satisfies t := by
  unfold whole at h
  split at h
  · obtain ⟨v, hv, rfl⟩ := exists_of_map_eq_ok h
    exact .plain (isPlain_of_simple hv)
  · obtain ⟨v, hv, rfl⟩ := exists_of_map_eq_ok h
    exact .plain (isPlain_of_item hv)
  · split at h
    · cases h
      exact .reference .refl
        (Basis.satisfies_entity_of_tested (htested _ (List.mem_singleton_self _)))
    · cases h
  · split at h
    · cases h
      exact .reference .refl
        (Basis.satisfies_select_of_tested (htested _ (List.mem_singleton_self _)))
    · cases h
  · cases h

/-- Whatever a parameter is converted to is accepted, if its links pass the test. -/
theorem accepted_conversion :
    Conversion b.registry b.settings place
      (fun t _ outcome => ∀ held, outcome = .ok held → (∀ l ∈ held.links, b.Tested l) →
        held.toValue.Accepted b.registry b.Satisfies t)
      (fun element _ outcome => ∀ held, outcome = .ok held → (∀ l ∈ allLinks held, b.Tested l) →
        ∀ v ∈ toValues held, v.Accepted b.registry b.Satisfies element) where
  lost _ := by
    intro held h
    cases h
  whole hground := by
    intro held h htested
    exact (accepted_whole h htested).of_standsFor (Registry.standsFor_of_ground hground)
  unwrapped hground hinner := by
    intro held h htested
    exact (hinner held h htested).of_standsFor (Registry.standsFor_of_ground hground)
  unselected _ _ := by
    intro held h
    cases h
  selected hground hoption hinner := by
    intro held h htested
    obtain ⟨own, hown, rfl⟩ := exists_of_map_eq_ok h
    exact .typed (Registry.standsFor_of_ground hground)
      (Registry.offers_of_selectOption hoption).1 (hinner own hown htested)
  outside _ _ := by
    intro held h
    cases h
  aggregate hground _ hitems := by
    intro held h htested
    obtain ⟨own, hown, rfl⟩ := exists_of_map_eq_ok h
    exact .list (Registry.standsFor_of_ground hground) (hitems own hown htested)
  nil {element} := by
    intro held h _
    cases h
    nofun
  stopped _ := by
    intro held h
    cases h
  cons {element p rest first outcome} hfirst hothers := by
    intro held h htested
    obtain ⟨others, hown, rfl⟩ := exists_of_map_eq_ok h
    rw [allLinks, List.forall_mem_append] at htested
    exact List.forall_mem_cons.mpr
      ⟨hfirst first rfl htested.1, hothers others hown htested.2⟩

/-- What is held in a slot is accepted at the type of the attribute. -/
theorem accepted_ofSlot {a : Attribute} {p : Parameter} {held : Held}
    (h : ofSlot b.registry b.settings a p = .ok held) (htested : ∀ l ∈ held.links, b.Tested l) :
    held.toValue.Accepted b.registry b.Satisfies a.type := by
  unfold ofSlot mismatch at h
  split at h
  · split at h
    · cases h
      exact .plain rfl
    · cases h
  · split at h
    · cases h
    · split at h
      · split at h
        · cases h
          exact .plain rfl
        · cases h
      · exact accepted_conversion.one a.type p held h htested

end Held

/-! ## Instances -/

namespace Basis

variable {b : Basis}

/-- Every field is accepted at the type of its attribute: each reference in its value stands at a
place that has a type, and leads to a record that meets the type of its place. -/
def FieldsAccepted (b : Basis) (attributes : List Attribute) (fields : Fields Value) : Prop :=
  ∀ field ∈ fields, ∃ a : Attribute, a.IsLast field.1 attributes ∧
    field.2.Accepted b.registry b.Satisfies a.type ∧
    ∀ u id, field.2.Holds b.registry a.type u id → b.Satisfies u id

/-- An instance is made of accepted values: those of the attributes of the entity type that its
record names, or part by part those of the attributes that the entity type of the part declares
itself. -/
inductive InstanceAccepted (b : Basis) : Record → Instance → Prop
  | entity {r : Record} {group : Group} {e : EntityType} {attributes : List Attribute} {x : Entity}
      (hbody : r.body = .simple group) (htype : b.registry.entity? group.keyword = some e)
      (hattributes : b.registry.attributesOf e = .ok attributes)
      (hfields : b.FieldsAccepted attributes x.attributes) : InstanceAccepted b r (.entity x)
  | complex {r : Record} {types : List EntityType} {c : ComplexEntity}
      (hbody : r.isComplex = true)
      (htypes : r.keywords.map b.registry.entity? = types.map some)
      (hparts : ∀ part ∈ c.parts, ∃ e ∈ types, part.1 = e.key ∧ ∃ attributes,
        b.registry.ownAttributes e (types.filter fun other => other.key ≠ e.key) =
          .ok attributes ∧
        b.FieldsAccepted attributes part.2.attributes) : InstanceAccepted b r (.complex c)

/-- The fields of slots are accepted, if what the slots hold is. -/
theorem fieldsAccepted_fieldsOnto {slots : List (Attribute × Held)}
    (h : ∀ slot ∈ slots, slot.2.toValue.Accepted b.registry b.Satisfies slot.1.type) :
    b.FieldsAccepted (slots.map Prod.fst) (Held.fieldsOnto [] slots) := by
  intro field hmem
  rcases Held.fieldsOnto_cases Fields.distinct_nil hmem with
    ⟨slot, hslot, hlast, hvalue⟩ | ⟨hnone, _⟩
  · have haccepted := h slot hslot
    rw [← hvalue] at haccepted
    exact ⟨slot.1, hlast, haccepted,
      fun u id hholds => haccepted.of_holds hholds fun _ _ => Satisfies.isGround⟩
  · cases hnone

theorem entity?_of_blueprint {keyword : Text} {own : Blueprint}
    (h : b.blueprint none keyword = .ok own) :
    b.registry.entity? keyword = some own.definition := by
  unfold blueprint at h
  split at h
  · rename_i e he
    cases h
    exact he
  · cases h

theorem entity?_of_partTypes {groups : List Group} {parts : List (EntityType × Group)}
    (h : b.partTypes none groups = .ok parts) :
    (groups.map Group.keyword).map b.registry.entity? = (parts.map Prod.fst).map some := by
  induction groups generalizing parts with
  | nil =>
    cases h
    rfl
  | cons group rest ih =>
    unfold partTypes at h
    split at h
    · cases h
    · rename_i own hown
      split at h
      · cases h
      · rename_i others hothers
        cases h
        simp only [List.map_cons, entity?_of_blueprint hown, ih hothers]

/-- The entities of a complex instance are those of its parts. -/
theorem mem_entitiesOnto {r : Registry} {id : Int} {entities : Fields Entity}
    {parts : List (EntityType × List (Attribute × Held))} (hdistinct : entities.Distinct)
    {field : Text × Entity} (h : field ∈ HeldRecord.entitiesOnto r id entities parts) :
    field ∈ entities ∨
      ∃ part ∈ parts, field = (part.1.key, HeldRecord.entity r id part.1 part.2) := by
  induction parts generalizing entities with
  | nil => exact .inl h
  | cons part rest ih =>
    obtain ⟨e, slots⟩ := part
    rcases ih (hdistinct.assign e.key _) h with hmem | ⟨part, hpart, rfl⟩
    · rcases (Fields.mem_assign hdistinct).mp hmem with rfl | ⟨hold, _⟩
      · exact .inr ⟨(e, slots), List.mem_cons_self, rfl⟩
      · exact .inl hold
    · exact .inr ⟨part, List.mem_cons_of_mem _ hpart, rfl⟩

/-- What a record is held as becomes an instance of accepted values, if all its links pass their
tests. -/
theorem instanceAccepted_of_hold {id : Int} {r : Record} {held : HeldRecord}
    (hheld : b.hold none id r = .ok held) (htested : ∀ l ∈ held.links, b.Tested l) :
    b.InstanceAccepted r (held.toInstance b.registry id) := by
  have haccepted : ∀ slot ∈ held.slots,
      slot.2.toValue.Accepted b.registry b.Satisfies slot.1.type := by
    intro slot hslot
    have hderived := forall_slots_hold
      (P := fun slot => slot.1.derived = true → slot.2 = .value .nothing)
      Held.eq_nothing_of_derived hheld slot hslot
    refine forall_slots_hold (P := fun slot => (∀ l ∈ slot.2.links, b.Tested l) →
      slot.2.toValue.Accepted b.registry b.Satisfies slot.1.type)
      Held.accepted_ofSlot hheld slot hslot fun l hl => htested l ?_
    rw [HeldRecord.links_eq, Held.slotLinks, List.mem_flatMap]
    refine ⟨slot, hslot, ?_⟩
    split
    · rename_i hyes
      rw [hderived hyes] at hl
      cases hl
    · exact hl
  cases held with
  | simple e slots =>
    obtain ⟨group, own, hbody, hown, rfl, _⟩ := hold_simple_eq_ok hheld
    exact .entity hbody (entity?_of_blueprint hown) (attributesOf_hold hheld)
      (fieldsAccepted_fieldsOnto haccepted)
  | complex parts =>
    obtain ⟨first, others, loose, typed, hbody, htyped, hparts⟩ := hold_complex_eq_ok hheld
    have htypes : r.keywords.map b.registry.entity? = (parts.map Prod.fst).map some := by
      rw [Site.types_holdParts hparts, ← entity?_of_partTypes htyped, Record.keywords,
        Record.groups, hbody]
      rfl
    refine .complex ?_ htypes fun field hfield => ?_
    · rw [Record.isComplex, hbody]
      rfl
    · rcases mem_entitiesOnto Fields.distinct_nil hfield with hnone | ⟨part, hpart, rfl⟩
      · cases hnone
      · refine ⟨part.1, List.mem_map_of_mem hpart, rfl, part.2.map Prod.fst,
          ownAttributes_hold hheld part hpart, fieldsAccepted_fieldsOnto fun slot hslot => ?_⟩
        exact haccepted slot (List.mem_flatMap.mpr ⟨part, hpart, hslot⟩)

/-! ## Resolution -/

/-- What is resolved is what its record says, with links that all pass their tests. -/
def IsTested (b : Basis) (id : Int) (value : Instance) : Prop :=
  ∃ r held, b.population.find? id = some r ∧ b.hold none id r = .ok held ∧
    value = held.toInstance b.registry id ∧ ∀ l ∈ held.links, b.Tested l

/-- On every descent, what is resolved is tested, whether the instances it refers to are resolved
already, are under construction, or fail later. -/
theorem tested_descent :
    b.Descent none (fun _ _ p _ q => p.Found b.IsTested (fun _ _ => True) →
        q.Found b.IsTested fun _ _ => True)
      (fun _ _ p _ q => p.Found b.IsTested (fun _ _ => True) →
        q.Found b.IsTested fun _ _ => True)
      (fun _ _ p _ q => p.Found b.IsTested (fun _ _ => True) →
        q.Found b.IsTested fun _ _ => True) where
  resolved _ h := h
  failed _ h := h
  unheld {path id p r thrown} _ _ _ h :=
    (h.begin id).finish (fun value hcompleted =>
      absurd hcompleted (b.ending_error_ne_completed id r thrown value)) fun _ _ => trivial
  built {path id p q r held outcome} _ hr _ hheld hfollowed hpassed h := by
    refine (hfollowed (h.begin id)).finish (fun value hcompleted => ?_) fun _ _ => trivial
    cases outcome with
    | error thrown => exact absurd hcompleted (b.ending_error_ne_completed id r thrown value)
    | ok done =>
      cases hcompleted
      exact ⟨r, held, hr, hheld, rfl, fun l hmem => (hpassed rfl l hmem).checked⟩
  missing _ h := h
  deferred _ _ _ _ h := h.report _
  refused _ _ _ _ _ h := h.refuse _ _
  below _ _ _ hentered := hentered
  nil h := h
  stopped hvisited := hvisited
  passed hvisited _ hfollowed h := hfollowed (hvisited h)

theorem tested_resolve (id : Int) (hdefault : b.ByDefault none) {p : Progress}
    (hclosed : ∀ other, p.standing other ≠ .inProgress)
    (h : p.Found b.IsTested fun _ _ => True) :
    (b.resolve none id p).2.Found b.IsTested fun _ _ => True := by
  cases hr : b.population.find? id with
  | none => rwa [resolve_of_find?_eq_none hr]
  | some r => exact tested_descent.resolve hdefault hclosed hr h

end Basis

/-! ## Sessions -/

namespace Table

variable {registry : Registry} {settings : Settings} {t u : Table}

/-- A table between two requests of a session in which only registered entity types are brought
along: what is resolved is tested. -/
structure Tested (registry : Registry) (settings : Settings) (t : Table) : Prop where
  plain : t.Plain registry settings
  found : t.progress.Found t.basis.IsTested fun _ _ => True

namespace Tested

theorem resolve (h : t.Tested registry settings) (id : Int) {expected : Option Expected}
    (hregistered : Registered registry expected) :
    (t.resolve id expected).2.Tested registry settings where
  plain := h.plain.resolve id expected
  found := by
    have hsame : t.basis.resolve (expected.bind Expected.brought?) id t.progress =
        t.basis.resolve none id t.progress := by
      rw [Registered, ← h.plain.registry] at hregistered
      exact Basis.enter_of_knows hregistered _ [] id t.progress
    rw [resolve_snd, hsame]
    exact Basis.tested_resolve id h.plain.byDefault_none h.plain.idle.closed h.found

theorem session (h : t.Tested registry settings) {requests : List Request}
    (hregistered : ∀ q ∈ requests, q.Expects (Registered registry)) :
    (t.session requests).Tested registry settings :=
  session_invariant (P := Tested registry settings) (fun _ hown => by cases hown)
    (fun hadd h => ⟨(Plain.add hadd h.plain).1, .of_untouched (Plain.add hadd h.plain).2⟩)
    (fun _ id _ hkind h => h.resolve id hkind)
    (fun _ event h => ⟨h.plain.report event, h.found.report event⟩) hregistered h

end Tested

/-- References are type safe.  Let a session go on at a table with default holders and without
factories, in which only registered entity types are brought along.  Whatever was resolved,
failed, was given up or was left to be followed later in it: behind it, every instance that is
resolved has a record, and each reference in its attributes, however deep inside aggregates,
defined types and selects, leads to a record that meets the type declared for its place. -/
theorem targets_accepted {requests : List Request}
    (hregistered : ∀ q ∈ requests, q.Expects (Registered registry))
    (ht : (empty registry .initial settings).session requests = t) {id : Int} {value : Instance}
    (hresolved : t.standing id = .resolved value) :
    ∃ r, t.basis.population.find? id = some r ∧ t.basis.InstanceAccepted r value := by
  have hstart : (empty registry .initial settings).Tested registry settings :=
    ⟨plain_empty registry settings, .of_untouched fun _ => rfl⟩
  have htested := hstart.session hregistered
  rw [ht] at htested
  obtain ⟨r, held, hr, hheld, rfl, hlinks⟩ := htested.found.resolved hresolved
  exact ⟨r, hr, Basis.instanceAccepted_of_hold hheld hlinks⟩

end Table

namespace Sample

/-- A choice between nodes in a row and a tag. -/
def choices : List TypeDef :=
  [.defined "NODES" (.aggregate "LIST OF NODE" (.ref "NODE") .list 0 none),
    .select "CHOICE" ["NODES", "TAG"]]

/-- An entity type with two choices. -/
def box : EntityType :=
  ⟨"BOX", [⟨"first", .ref "CHOICE", false, false⟩, ⟨"second", .ref "CHOICE", false, false⟩], [],
    false, []⟩

/-- A registry of nodes, tags, choices and boxes. -/
def boxRegistry : Registry :=
  (choices ++ [TypeDef.entity box]).foldl (fun r t => (r.register t false).toOption.getD r) registry

/-- A box with a node, in a row, and with a tag, and two nodes of which one is missing what it
refers to. -/
def boxes : List Request :=
  [.add ⟨some 1, .simple ⟨"BOX", [.typed "NODES" (.list [.reference 2]), .reference 3]⟩, none, none⟩,
    .add (record 2 []), .add ⟨some 3, .simple ⟨"TAG", []⟩, none, none⟩, .add (record 4 [2, 5]),
    .resolveAll]

/-- The table behind these requests. -/
def boxTable : Table := (Table.empty boxRegistry .initial .default).session boxes

end Sample

namespace Table

theorem targets_accepted_boxes :
    ∃ value, Sample.boxTable.standing 1 = .resolved value ∧
      ∃ r, Sample.boxTable.basis.population.find? 1 = some r ∧
        Sample.boxTable.basis.InstanceAccepted r value := by
  have hregistered : ∀ q ∈ Sample.boxes, q.Expects (Registered Sample.boxRegistry) := by
    simp [Sample.boxes, Request.Expects]
  have hname : (Sample.boxTable.standing 1).name = "resolved" := by decide +kernel
  cases hstanding : Sample.boxTable.standing 1 with
  | resolved value => exact ⟨value, rfl, targets_accepted hregistered rfl hstanding⟩
  | _ =>
    rw [hstanding] at hname
    exact absurd hname (by dsimp only [Standing.name]; decide)

end Table

end Part21
