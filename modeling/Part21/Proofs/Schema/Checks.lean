import Part21.Proofs.Schema.Linearization
import Part21.Proofs.Schema.Options
import Part21.Schema.Validation

set_option autoImplicit false

/-!
# What a valid registry answers

The check of a type goes through references, defined types and aggregates, and remembers the
defined types on its way.  Where these are only named, each of them is a registered one, so a check
that succeeds meets no more of them than the registry has types, and the way through references and
defined types never comes to its limit (`Registry.Sound.leads`).

In a valid registry all registered types and the types of their attributes are sound in this sense,
and every question to it has an answer: what a type stands for, which entity types a select offers,
which attributes and ancestors an entity type has (`Registry.Valid`).
-/

namespace Part21

/-! ## Types that are named -/

namespace TypeDef

/-- Selects, enumerations and defined types are not written out in the type but named. -/
def isNaming : TypeDef → Bool
  | aggregate _ element _ _ _ => element.isNaming
  | defined _ _ => false
  | enumeration _ _ => false
  | select _ _ => false
  | _ => true

/-- The same of the types that a registered type is made of. -/
def mentionsNames : TypeDef → Bool
  | aggregate _ element _ _ _ => element.isNaming
  | defined _ underlying => underlying.isNaming
  | entity e => e.attributes.all fun a => a.type.isNaming
  | _ => true

end TypeDef

namespace Registry

variable {r : Registry} {t : TypeDef} {seen : List Text}

/-- The types of a registry name the selects, enumerations and defined types that they are made
of. -/
def MentionsNames (r : Registry) : Prop := ∀ entry ∈ r.types, entry.2.mentionsNames = true

instance : Decidable r.MentionsNames := inferInstanceAs (Decidable (∀ _ ∈ _, _))

/-! ## Checks -/

theorem checkWithin_defined (references : Nat) (name : Text) (underlying : TypeDef) :
    r.checkWithin references (.defined name underlying) seen =
      if seen.contains name.upper then .error (.selfReference name)
      else r.checkWithin references underlying (seen ++ [name.upper]) := by
  cases references <;> rfl

theorem checkWithin_aggregate (references : Nat) (name : Text) (element : TypeDef)
    (kind : AggregateKind) (lower : Int) (upper : Option Int) :
    r.checkWithin references (.aggregate name element kind lower upper) seen =
      r.checkWithin references element seen := by
  cases references <;> rfl

/-- The check of a type succeeds behind the defined types seen so far, if enough references may be
followed. -/
def Checked (r : Registry) (t : TypeDef) (seen : List Text) : Prop :=
  ∃ references, r.checkWithin references t seen = .ok ()

namespace Checked

theorem ref {name : Text} (h : r.Checked (.ref name) seen) :
    ∃ next, r.find? name = some next ∧ r.Checked next seen := by
  obtain ⟨references, h⟩ := h
  cases references with
  | zero => cases h
  | succ references =>
    simp only [checkWithin, checkWritten] at h
    split at h
    · rename_i next hfind
      exact ⟨next, hfind, references, h⟩
    · cases h

theorem defined {name : Text} {underlying : TypeDef} (h : r.Checked (.defined name underlying) seen) :
    name.upper ∉ seen ∧ r.Checked underlying (seen ++ [name.upper]) := by
  obtain ⟨references, h⟩ := h
  rw [checkWithin_defined] at h
  split at h
  · cases h
  · rename_i hnew
    exact ⟨fun hmem => hnew (List.contains_iff_mem.mpr hmem), references, h⟩

theorem aggregate {name : Text} {element : TypeDef} {kind : AggregateKind} {lower : Int}
    {upper : Option Int} (h : r.Checked (.aggregate name element kind lower upper) seen) :
    r.Checked element seen := by
  obtain ⟨references, h⟩ := h
  rw [checkWithin_aggregate] at h
  exact ⟨references, h⟩

/-- A reference to itself is gone round without end. -/
theorem not_of_loop {name : Text} (hloop : r.find? name = some (.ref name)) :
    ¬ r.Checked (.ref name) seen := by
  rintro ⟨references, h⟩
  induction references with
  | zero => cases h
  | succ references ih =>
    simp only [checkWithin, checkWritten] at h
    rw [hloop] at h
    exact ih h

/-- No reference is registered. -/
theorem ne_ref {name other : Text} (hfind : r.find? name = some t) (h : r.Checked t seen) :
    t ≠ .ref other := by
  rintro rfl
  have hkey : other.upper = name.upper := key_of_find? hfind
  rw [← find?_congr hkey] at hfind
  exact not_of_loop hfind h

end Checked

/-- Names of registered types, none of them twice. -/
structure Way (r : Registry) (seen : List Text) : Prop where
  distinct : seen.Nodup
  registered : seen ⊆ r.typeNames

namespace Way

theorem nil (r : Registry) : r.Way [] := ⟨List.nodup_nil, List.nil_subset _⟩

theorem length_le (h : r.Way seen) : seen.length ≤ r.types.length := by
  rw [← @List.length_map _ _ r.types Prod.fst]
  exact (h.distinct.subperm h.registered).length_le

theorem append (h : r.Way seen) {name : Text} (hfind : r.find? name = some t)
    (hnew : t.key ∉ seen) : r.Way (seen ++ [t.key]) where
  distinct := by
    rw [List.nodup_append]
    refine ⟨h.distinct, List.nodup_singleton _, fun key hkey own hown hsame => ?_⟩
    exact hnew (List.mem_singleton.mp hown ▸ hsame ▸ hkey)
  registered := by
    have hmem : t.key ∈ r.typeNames :=
      key_of_find? hfind ▸ List.mem_map_of_mem (mem_types_of_find? hfind)
    exact List.append_subset.mpr ⟨h.registered, List.cons_subset.mpr ⟨hmem, List.nil_subset _⟩⟩

end Way

/-! ## Sound types -/

/-- A type that is registered or names what it is made of, and for which the check succeeds behind
some defined types of the registry. -/
structure Sound (r : Registry) (t : TypeDef) : Prop where
  written : t.isNaming = true ∨ ∃ name, r.find? name = some t
  checked : ∃ seen, r.Way seen ∧ r.Checked t seen

/-- At most so many references have to be followed on the way to a type that is neither a
reference nor a defined type. -/
inductive Leads (r : Registry) : Nat → TypeDef → Prop
  | ground {references : Nat} {t : TypeDef} (hground : t.isGround = true) : Leads r references t
  | defined {references : Nat} {name : Text} {underlying : TypeDef}
      (hleads : Leads r references underlying) : Leads r references (.defined name underlying)
  | ref {references : Nat} {name : Text} {next : TypeDef} (hfind : r.find? name = some next)
      (hleads : Leads r references next) : Leads r (references + 1) (.ref name)

/-- A registered type leads as far as what it is defined as, which has been seen by then. -/
theorem leads_of_registered (hnames : r.MentionsNames) {references : Nat} {name : Text}
    (hfind : r.find? name = some t) (hway : r.Way seen) (hchecked : r.Checked t seen)
    (hunderlying : ∀ underlying more, underlying.isNaming = true → r.Way more →
      r.Checked underlying more → more.length = seen.length + 1 → r.Leads references underlying) :
    r.Leads references t := by
  cases t with
  | ref other => exact absurd rfl (hchecked.ne_ref hfind)
  | defined own underlying =>
    obtain ⟨hnew, hinside⟩ := hchecked.defined
    refine .defined (hunderlying underlying _ ?_ (hway.append hfind hnew) hinside ?_)
    · exact hnames _ (mem_types_of_find? hfind)
    · rw [List.length_append, List.length_singleton]
  | _ => exact .ground rfl

/-- No way is longer than the registry has types, as each reference leads to a type that was not
seen before. -/
theorem leads_of_checked (hnames : r.MentionsNames) {references : Nat} (hnaming : t.isNaming = true)
    (hway : r.Way seen) (hchecked : r.Checked t seen)
    (hroom : r.types.length < seen.length + references) : r.Leads references t := by
  induction references generalizing t seen with
  | zero =>
    have hlength := hway.length_le
    omega
  | succ references ih =>
    cases t with
    | ref name =>
      obtain ⟨next, hfind, hnext⟩ := hchecked.ref
      refine .ref hfind (leads_of_registered hnames hfind hway hnext ?_)
      intro underlying more hunderlying hmore hinside hlength
      exact ih hunderlying hmore hinside (by omega)
    | defined => cases hnaming
    | _ => exact .ground rfl

namespace Sound

/-- The way from a sound type never comes to the limit. -/
theorem leads (hnames : r.MentionsNames) (h : r.Sound t) : r.Leads r.referenceLimit t := by
  obtain ⟨seen, hway, hchecked⟩ := h.checked
  have hroom : ∀ length, r.types.length < length + r.referenceLimit := by
    intro length
    unfold referenceLimit
    omega
  rcases h.written with hnaming | ⟨name, hfind⟩
  · exact leads_of_checked hnames hnaming hway hchecked (hroom _)
  · apply leads_of_registered hnames hfind hway hchecked
    intro underlying more hunderlying hmore hinside _
    exact leads_of_checked hnames hunderlying hmore hinside (hroom _)

/-- What a sound type stands for is sound. -/
theorem of_unfolds (hnames : r.MentionsNames) (h : r.Sound t) {u : TypeDef}
    (hunfolds : r.Unfolds t u) : r.Sound u := by
  obtain ⟨seen, hway, hchecked⟩ := h.checked
  cases hunfolds with
  | ref hfind =>
    obtain ⟨next, hnext, hinside⟩ := hchecked.ref
    obtain rfl := Option.some.inj (hnext.symm.trans hfind)
    exact ⟨.inr ⟨_, hfind⟩, seen, hway, hinside⟩
  | defined name underlying =>
    obtain ⟨hnew, hinside⟩ := hchecked.defined
    obtain ⟨own, hfind⟩ := h.written.resolve_left nofun
    exact ⟨.inl (hnames _ (mem_types_of_find? hfind)), _, hway.append hfind hnew, hinside⟩

theorem of_standsFor (hnames : r.MentionsNames) (h : r.Sound t) {u : TypeDef}
    (hstands : r.StandsFor t u) : r.Sound u := by
  induction hstands with
  | refl => exact h
  | tail _ hunfolds ih => exact ih.of_unfolds hnames hunfolds

theorem element (hnames : r.MentionsNames) {name : Text} {element : TypeDef}
    {kind : AggregateKind} {lower : Int} {upper : Option Int}
    (h : r.Sound (.aggregate name element kind lower upper)) : r.Sound element := by
  obtain ⟨seen, hway, hchecked⟩ := h.checked
  refine ⟨.inl ?_, seen, hway, hchecked.aggregate⟩
  rcases h.written with hnaming | ⟨own, hfind⟩
  · exact hnaming
  · exact hnames _ (mem_types_of_find? hfind)

/-- A select that a sound type is has a name in the registry. -/
theorem find?_select {name : Text} {options : List Text} (h : r.Sound (.select name options)) :
    ∃ own, r.find? own = some (.select name options) :=
  h.written.resolve_left nofun

end Sound

/-- The way to what a type stands for comes to an end within the references it takes. -/
theorem Leads.underlyingWithin {references : Nat} (h : r.Leads references t) :
    ∃ u, r.underlyingWithin references t = .ok u := by
  induction h with
  | @ground references t hground =>
    refine ⟨t, ?_⟩
    cases references <;> cases t <;> first
      | rfl
      | cases hground
  | @defined references name underlying _ ih =>
    obtain ⟨u, hu⟩ := ih
    exact ⟨u, by cases references <;> exact hu⟩
  | ref hfind _ ih =>
    obtain ⟨u, hu⟩ := ih
    refine ⟨u, ?_⟩
    simp only [Registry.underlyingWithin, throughDefined]
    rw [hfind]
    exact hu

/-! ## Valid registries -/

/-- A registry that was validated, of which the types name the selects, enumerations and defined
types that they are made of. -/
structure Valid (r : Registry) : Prop where
  validated : r.validate = .ok ()
  mentionsNames : r.MentionsNames

theorem checkRegistered_of_checkAll {types : List (Text × TypeDef)}
    (h : r.checkAll types = .ok ()) : ∀ entry ∈ types, r.checkRegistered entry.2 = .ok () := by
  induction types with
  | nil => nofun
  | cons entry rest ih =>
    unfold checkAll at h
    split at h
    · cases h
    · rename_i hfirst
      exact List.forall_mem_cons.mpr ⟨hfirst, ih h⟩

theorem checkType_of_checkAttributes {attributes : List Attribute}
    (h : r.checkAttributes attributes = .ok ()) : ∀ a ∈ attributes, r.checkType a.type = .ok () := by
  induction attributes with
  | nil => nofun
  | cons a rest ih =>
    unfold checkAttributes at h
    split at h
    · cases h
    · rename_i hfirst
      exact List.forall_mem_cons.mpr ⟨hfirst, ih h⟩

theorem sound_of_checkType (hnaming : t.isNaming = true) (h : r.checkType t = .ok ()) :
    r.Sound t :=
  ⟨.inl hnaming, [], .nil r, _, h⟩

/-- An entity type that a registry would not complain about: it has a linearization, and its
attributes have sound types. -/
structure SoundEntity (r : Registry) (e : EntityType) : Prop where
  linear : ∃ chain, r.linearization e = .ok chain
  sound : ∀ a ∈ e.attributes, r.Sound a.type

theorem soundEntity_of_checks {e : EntityType} (hlinear : ∃ chain, r.linearization e = .ok chain)
    (hnaming : ∀ a ∈ e.attributes, a.type.isNaming = true)
    (hattributes : r.checkAttributes e.attributes = .ok ()) : r.SoundEntity e where
  linear := hlinear
  sound a hmem := sound_of_checkType (hnaming a hmem) (checkType_of_checkAttributes hattributes a hmem)

theorem SoundEntity.rooted {e : EntityType} (h : r.SoundEntity e) : r.Rooted e := by
  obtain ⟨chain, hchain⟩ := h.linear
  exact rooted_of_linearization hchain

theorem SoundEntity.linearizations {es : List EntityType} (h : ∀ e ∈ es, r.SoundEntity e) :
    ∃ all, r.linearizations es = .ok all := by
  induction es with
  | nil => exact ⟨[], rfl⟩
  | cons e rest ih =>
    obtain ⟨hfirst, hrest⟩ := List.forall_mem_cons.mp h
    obtain ⟨chain, hchain⟩ := hfirst.linear
    obtain ⟨others, hothers⟩ := ih hrest
    refine ⟨chain ++ others, ?_⟩
    rw [Registry.linearizations, hchain]
    dsimp only
    rw [hothers]

/-- The attributes that an entity type declares itself, with others beside it. -/
theorem SoundEntity.ownAttributes {e : EntityType} (h : r.SoundEntity e) {others : List EntityType}
    (hothers : ∀ f ∈ others, r.SoundEntity f) :
    ∃ attributes, r.ownAttributes e others = .ok attributes ∧
      ∀ a ∈ attributes, r.Sound a.type := by
  obtain ⟨all, hall⟩ := SoundEntity.linearizations (List.forall_mem_cons.mpr ⟨h, hothers⟩)
  refine ⟨declaredAttributes all e, ?_, fun a hmem => ?_⟩
  · rw [Registry.ownAttributes, hall]
  · obtain ⟨own, hown, rfl⟩ := List.mem_map.mp hmem
    exact h.sound own hown

namespace Valid

theorem checkRegistered (h : r.Valid) {name : Text} (hfind : r.find? name = some t) :
    r.checkRegistered t = .ok () :=
  checkRegistered_of_checkAll h.validated _ (mem_types_of_find? hfind)

/-- Registered types are sound. -/
theorem sound (h : r.Valid) {name : Text} (hfind : r.find? name = some t) : r.Sound t := by
  refine ⟨.inr ⟨name, hfind⟩, [], .nil r, 2 * r.referenceLimit, ?_⟩
  have hcheck := h.checkRegistered hfind
  cases t with
  | entity | select =>
    rw [referenceLimit, Nat.mul_succ]
    rfl
  | _ => exact hcheck

/-- A type stands for one that is neither a reference nor a defined type. -/
theorem underlying (h : r.Valid) (hsound : r.Sound t) : ∃ u, r.underlying t = .ok u :=
  (hsound.leads h.mentionsNames).underlyingWithin

theorem selectEntities (h : r.Valid) {name : Text} {options : List Text}
    (hsound : r.Sound (.select name options)) :
    ∃ names, r.selectEntities ⟨name, options⟩ = .ok names := by
  obtain ⟨own, hfind⟩ := hsound.find?_select
  have hcheck := h.checkRegistered hfind
  unfold Registry.checkRegistered at hcheck
  dsimp only at hcheck
  split at hcheck
  · cases hcheck
  · rename_i names hnames
    exact ⟨names, hnames⟩

theorem soundEntity (h : r.Valid) {e : EntityType} (he : r.IsRegistered e) : r.SoundEntity e := by
  obtain ⟨name, hname⟩ := he
  have hfind := find?_of_entity hname
  have hcheck := h.checkRegistered hfind
  unfold Registry.checkRegistered at hcheck
  dsimp only at hcheck
  split at hcheck
  · cases hcheck
  · rename_i chain hchain
    split at hcheck
    · cases hcheck
    · rename_i hattributes
      refine soundEntity_of_checks ⟨chain, hchain⟩ ?_ hattributes
      exact List.all_eq_true.mp (h.mentionsNames _ (mem_types_of_find? hfind))

/-- All attributes of an entity type have sound types. -/
theorem attributesOf (h : r.Valid) {e : EntityType} (he : r.SoundEntity e) :
    ∃ attributes, r.attributesOf e = .ok attributes ∧ ∀ a ∈ attributes, r.Sound a.type := by
  obtain ⟨chain, hchain⟩ := he.linear
  refine ⟨chain.flatMap (declaredAttributes chain), ?_, fun a hmem => ?_⟩
  · rw [Registry.attributesOf, hchain]
  · obtain ⟨f, hf, ha⟩ := List.mem_flatMap.mp hmem
    obtain ⟨own, hown, rfl⟩ := List.mem_map.mp ha
    obtain ⟨_, above, hlisted, rfl⟩ := listed_of_linearization hchain
    rcases List.mem_append.mp hf with habove | hself
    · exact (h.soundEntity (hlisted f habove).1).sound own hown
    · exact he.sound own (List.mem_singleton.mp hself ▸ hown)

/-- The question for subtypes always has an answer. -/
theorem isSubtype (h : r.Valid) (sub sup : Text) : ∃ answer, r.isSubtype sub sup = .ok answer := by
  unfold Registry.isSubtype
  cases hsub : r.entity? sub with
  | none => exact ⟨false, rfl⟩
  | some e =>
    have he : r.IsRegistered e := isRegistered_of_entity? hsub
    obtain ⟨names, hnames⟩ := ancestors_of_rooted (h.soundEntity he).rooted
    dsimp only
    rw [hnames]
    exact ⟨_, rfl⟩

end Valid

/-- All questions to a registry about its own types have answers. -/
structure Answers (r : Registry) : Prop where
  attributesOf : ∀ e, r.IsRegistered e → ∃ attributes, r.attributesOf e = .ok attributes
  ownAttributes : ∀ e others, r.IsRegistered e → (∀ f ∈ others, r.IsRegistered f) →
    ∃ attributes, r.ownAttributes e others = .ok attributes
  ancestors : ∀ e, r.IsRegistered e → ∃ names, r.ancestors e = .ok names
  isSubtype : ∀ sub sup, ∃ answer, r.isSubtype sub sup = .ok answer
  selectEntities : ∀ name own options, r.find? name = some (.select own options) →
    ∃ names, r.selectEntities ⟨own, options⟩ = .ok names
  underlying : ∀ name t, r.find? name = some t → ∃ u, r.underlying t = .ok u

theorem Valid.answers (h : r.Valid) : r.Answers where
  attributesOf e he := by
    obtain ⟨attributes, hattributes, _⟩ := h.attributesOf (h.soundEntity he)
    exact ⟨attributes, hattributes⟩
  ownAttributes e others he hothers := by
    obtain ⟨attributes, hattributes, _⟩ :=
      (h.soundEntity he).ownAttributes fun f hf => h.soundEntity (hothers f hf)
    exact ⟨attributes, hattributes⟩
  ancestors e he := ancestors_of_rooted (h.soundEntity he).rooted
  isSubtype := h.isSubtype
  selectEntities _ _ _ hfind := h.selectEntities (h.sound hfind)
  underlying _ _ hfind := h.underlying (h.sound hfind)

end Registry

end Part21
