import Mathlib.Algebra.Group.Int.Defs
import Part21.Proofs.Resolution.Brought
import Part21.Proofs.Resolution.Failures
import Part21.Proofs.Resolution.Parts
import Part21.Proofs.Resolution.Targets
import Part21.Proofs.Schema.Checks

set_option autoImplicit false

/-!
# Resolution with a valid registry

Where a record is held, types are followed through references and defined types, and options of
selects are sought by their names.  Where the target of a reference is tested, selects are asked for
their entity types and keywords for their ancestors.  In a valid registry each of these questions is
about a sound type or a rooted entity type, whatever the parameters of the record are, and so it has
an answer (`Basis.holds_hold`, `Basis.foresees_checkTarget`).

So the schema never fails while instances are resolved by default.  The only failure that can become
the error of an instance is that of an integer too large for a real (`Table.foreseen_of_valid`).
An entity type that is brought along and not registered was not validated with the registry, and has
to pass the same checks (`Registry.Vets`).
-/

namespace Part21

/-! ## Failures that are foreseen -/

/-- No failure is the reason, other than that an integer is too large for a real. -/
def Reason.Foreseen (reason : Reason) : Prop :=
  ∀ original, reason = .construction original → original = .tooLarge

/-- What ends with a failure ends with a foreseen one. -/
abbrev Thrown.Foresees {α : Type} (outcome : Except Thrown α) : Prop :=
  Only (· = .tooLarge) outcome

open Thrown

/-! ## What is held -/

/-- The instances of a type can be referred to: it is an entity type, or a select of which the
entity types are known. -/
inductive Registry.Receives (r : Registry) : TypeDef → Prop
  | entity (e : EntityType) : Receives r (.entity e)
  | select {name : Text} {options names : List Text}
      (hnames : r.selectEntities ⟨name, options⟩ = .ok names) : Receives r (.select name options)

/-- What is held raises foreseen errors only, and its links expect types of which the instances can
be referred to. -/
structure Registry.Holds {α : Type} (r : Registry) (links : α → List Link)
    (outcome : Except Thrown α) : Prop where
  foresees : Foresees outcome
  receives : ∀ value, outcome = .ok value → ∀ l ∈ links value, r.Receives l.expected

namespace Registry.Holds

variable {α β : Type} {r : Registry} {links : α → List Link} {more : β → List Link}
  {outcome : Except Thrown α} {thrown : Thrown}

theorem ok {value : α} (h : ∀ l ∈ links value, r.Receives l.expected) :
    r.Holds links (.ok value) where
  foresees := anyIs_ok value
  receives own hown := by
    cases hown
    exact h

theorem error (h : thrown.Of (· = .tooLarge)) : r.Holds links (.error thrown) where
  foresees := anyIs_error h
  receives := nofun

theorem pass (h : r.Holds links (.error thrown)) : r.Holds more (.error thrown) :=
  .error (h.foresees thrown rfl)

theorem map (h : r.Holds links outcome) {f : α → β}
    (hlinks : ∀ value, outcome = .ok value → ∀ l ∈ more (f value),
      l ∈ links value ∨ r.Receives l.expected) : r.Holds more (outcome.map f) := by
  cases outcome with
  | error thrown => exact h.pass
  | ok value =>
    exact .ok fun l hmem => (hlinks value rfl l hmem).elim (h.receives value rfl l) id

end Registry.Holds

namespace Held

variable {r : Registry} {s : Settings} {place : Text}

theorem foresees_simple (type : SimpleType) (p : Parameter) : Foresees (simple s place type p) := by
  unfold simple mismatch
  repeat' split
  all_goals first
    | exact anyIs_ok _
    | exact anyIs_error rfl
    | exact anyIs_error nofun

theorem foresees_item (name : Text) (items : List Text) (p : Parameter) :
    Foresees (item s place name items p) := by
  unfold item mismatch
  repeat' split
  all_goals first
    | exact anyIs_ok _
    | exact anyIs_error nofun

/-- A value has no links. -/
theorem holds_value {outcome : Except Thrown Value} (h : Foresees outcome) :
    r.Holds links (outcome.map .value) where
  foresees := h.map _
  receives held hheld l hmem := by
    obtain ⟨value, _, rfl⟩ := exists_of_map_eq_ok hheld
    cases hmem

theorem holds_reference {t : TypeDef} (ht : r.Receives t) (id : Int) :
    r.Holds links (.ok (.reference id t place)) := by
  apply Registry.Holds.ok
  intro l hmem
  rw [List.mem_singleton.mp hmem]
  exact ht

theorem holds_whole (hvalid : r.Valid) {t : TypeDef} (hsound : r.Sound t) (p : Parameter) :
    r.Holds links (whole s place t p) := by
  unfold whole mismatch
  split
  · exact holds_value (foresees_simple _ p)
  · exact holds_value (foresees_item _ _ p)
  · split
    · exact holds_reference (.entity _) _
    · exact .error nofun
  · split
    · obtain ⟨names, hnames⟩ := hvalid.selectEntities hsound
      exact holds_reference (.select hnames) _
    · exact .error nofun
  · exact .error nofun

end Held

/-- The way through references and defined types comes to an end within the references it takes. -/
theorem Registry.Leads.groundWithin {r : Registry} {references : Nat} {t : TypeDef}
    (h : r.Leads references t) (sought : Option Text) :
    ∃ ground, r.groundWithin sought references t = .ok ground := by
  induction h with
  | @ground references t hground =>
    refine ⟨.type t, ?_⟩
    cases references <;> cases t <;> first
      | rfl
      | cases hground
  | @defined references name underlying _ ih =>
    obtain ⟨ground, hground⟩ := ih
    by_cases hname : sought = some name.upper
    · refine ⟨.wrapper underlying, ?_⟩
      cases references <;> exact if_pos hname
    · refine ⟨ground, ?_⟩
      cases references <;> exact (if_neg hname).trans hground
  | ref hfind _ ih =>
    obtain ⟨ground, hground⟩ := ih
    refine ⟨ground, ?_⟩
    simp only [Registry.groundWithin, Registry.groundThrough]
    rw [hfind]
    exact hground

namespace Held

variable {r : Registry} {s : Settings} {place : Text}

theorem sound_of_ground (hvalid : r.Valid) {t : TypeDef} (hsound : r.Sound t)
    {sought : Option Text} {ground : Ground} (hground : r.ground sought t = .ok ground) :
    r.Sound ground.target :=
  hsound.of_standsFor hvalid.mentionsNames (Registry.standsFor_of_ground hground)

/-- A parameter is held against a sound type without a failure of the schema. -/
theorem holds_conversion (hvalid : r.Valid) :
    Conversion r s place (fun t _ outcome => r.Sound t → r.Holds links outcome)
      (fun element _ outcome => r.Sound element → r.Holds allLinks outcome) where
  lost {t p sought failure} hground hsound := by
    obtain ⟨ground, hok⟩ := (hsound.leads hvalid.mentionsNames).groundWithin sought
    rw [Registry.ground, hok] at hground
    cases hground
  whole hground hsound := holds_whole hvalid (sound_of_ground hvalid hsound hground) _
  unwrapped hground hinner hsound := hinner (sound_of_ground hvalid hsound hground)
  unselected _ _ _ := .error nofun
  selected {t option keyword name options inner outcome} hground hoption hinner hsound := by
    have hoffers := (Registry.offers_of_selectOption hoption).1
    exact (hinner (hvalid.sound hoffers.find?)).map fun held _ l hmem => .inl hmem
  outside _ _ _ := .error nofun
  aggregate hground _ hitems hsound :=
    (hitems ((sound_of_ground hvalid hsound hground).element hvalid.mentionsNames)).map
      fun items _ l hmem => .inl hmem
  nil _ := .ok nofun
  stopped hfirst hsound := (hfirst hsound).pass
  cons hfirst hothers hsound := by
    refine (hothers hsound).map fun others _ l hmem => ?_
    rcases List.mem_append.mp hmem with hnew | hold
    · exact .inr ((hfirst hsound).receives _ rfl l hnew)
    · exact .inl hold

theorem holds_ofSlot (hvalid : r.Valid) {a : Attribute} (hsound : r.Sound a.type) (p : Parameter) :
    r.Holds links (ofSlot r s a p) := by
  unfold ofSlot mismatch
  split
  · split
    · exact .ok nofun
    · exact .error nofun
  · split
    · exact .error nofun
    · split
      · split
        · exact .ok nofun
        · exact .error nofun
      · exact (holds_conversion hvalid).one a.type p hsound

theorem holds_ofSlots (hvalid : r.Valid) {attributes : List Attribute}
    (hsound : ∀ a ∈ attributes, r.Sound a.type) (parameters : List Parameter) :
    r.Holds slotLinks (ofSlots r s attributes parameters) := by
  induction attributes generalizing parameters with
  | nil =>
    rw [ofSlots_nil_left]
    exact .ok nofun
  | cons a attributes ih =>
    cases parameters with
    | nil =>
      rw [ofSlots_nil_right]
      exact .ok nofun
    | cons p rest =>
      obtain ⟨hfirst, hrest⟩ := List.forall_mem_cons.mp hsound
      have hslot := holds_ofSlot (s := s) hvalid hfirst p
      have hslots := ih hrest rest
      rw [ofSlots]
      split
      · rename_i thrown hheld
        exact .error (hslot.foresees thrown hheld)
      · rename_i held hheld
        split
        · rename_i thrown hothers
          exact .error (hslots.foresees thrown hothers)
        · rename_i others hothers
          refine .ok fun l hmem => ?_
          rw [slotLinks, List.flatMap_cons, List.mem_append] at hmem
          rcases hmem with hnew | hold
          · split at hnew
            · cases hnew
            · exact hslot.receives held hheld l hnew
          · exact hslots.receives others hothers l hold

theorem holds_ofGroup (hvalid : r.Valid) {attributes : List Attribute}
    (hsound : ∀ a ∈ attributes, r.Sound a.type) (typeName : Text) (parameters : List Parameter) :
    r.Holds slotLinks (ofGroup r s typeName attributes parameters) := by
  unfold ofGroup
  split
  · exact holds_ofSlots hvalid hsound parameters
  · exact .error nofun

end Held

namespace Site

variable {site : Site}

theorem holds_hold (hvalid : site.registry.Valid) {e : EntityType}
    (he : site.registry.SoundEntity e) (parameters : List Parameter) :
    site.registry.Holds Held.slotLinks (site.hold e parameters) := by
  obtain ⟨attributes, hattributes, hsound⟩ := hvalid.attributesOf he
  rw [hold, hattributes]
  exact Held.holds_ofGroup hvalid hsound _ parameters

theorem holds_holdPart (hvalid : site.registry.Valid) {e : EntityType} {others : List EntityType}
    (he : site.registry.SoundEntity e) (hothers : ∀ f ∈ others, site.registry.SoundEntity f)
    (parameters : List Parameter) :
    site.registry.Holds Held.slotLinks (site.holdPart e others parameters) := by
  obtain ⟨attributes, hattributes, hsound⟩ := he.ownAttributes hothers
  rw [holdPart, hattributes]
  exact Held.holds_ofGroup hvalid hsound _ parameters

theorem holds_holdParts (hvalid : site.registry.Valid) {all : List EntityType}
    (hall : ∀ e ∈ all, site.registry.SoundEntity e) {parts : List (EntityType × Group)}
    (hparts : ∀ part ∈ parts, site.registry.SoundEntity part.1) :
    site.registry.Holds (fun held => held.flatMap fun part => Held.slotLinks part.2)
      (site.holdParts all parts) := by
  induction parts with
  | nil => exact .ok nofun
  | cons part rest ih =>
    obtain ⟨e, group⟩ := part
    obtain ⟨he, hrest⟩ := List.forall_mem_cons.mp hparts
    have hpart := @holds_holdPart _ hvalid _ (all.filter fun other => other.key ≠ e.key) he
      (fun f hf => hall f (List.mem_filter.mp hf).1) group.parameters
    have hothers := ih hrest
    rw [holdParts]
    split
    · rename_i thrown hthrown
      exact .error (hpart.foresees thrown hthrown)
    · rename_i slots hslots
      split
      · rename_i thrown hthrown
        exact .error (hothers.foresees thrown hthrown)
      · rename_i more hmore
        refine .ok fun l hmem => ?_
        rw [List.flatMap_cons, List.mem_append] at hmem
        exact hmem.elim (hpart.receives slots hslots l) (hothers.receives more hmore l)

end Site

/-! ## What is brought along -/

/-- An entity type that is brought along passes the checks that a registry makes: where it stands in
for a keyword, it has a linearization, and its attributes are of types that are found and that name
the selects, enumerations and defined types they are made of. -/
structure Registry.Vets (r : Registry) (own : Blueprint) : Prop extends r.Admits own where
  linear : r.entity? own.definition.name = none →
    ∃ chain, r.linearization own.definition = .ok chain
  attributes : r.entity? own.definition.name = none →
    (∀ a ∈ own.definition.attributes, a.type.isNaming = true) ∧
      r.checkAttributes own.definition.attributes = .ok ()

namespace Registry.Vets

variable {r : Registry} {own : Blueprint}

theorem soundEntity (h : r.Vets own) (hnone : r.entity? own.definition.name = none) :
    r.SoundEntity own.definition :=
  soundEntity_of_checks (h.linear hnone) (h.attributes hnone).1 (h.attributes hnone).2

theorem ancestors (h : r.Vets own) : ∃ names, r.ancestors own.definition = .ok names := by
  cases hown : r.entity? own.definition.name with
  | none => exact ancestors_of_rooted (h.soundEntity hown).rooted
  | some e => exact h.supertypes e hown

end Registry.Vets

/-- Whatever is brought along with an expectation passes the checks of the registry. -/
def Vetted (r : Registry) (expected : Option Expected) : Prop :=
  ∀ own, expected.bind Expected.brought? = some own → r.Vets own

theorem vetted_none (r : Registry) : Vetted r none := by
  intro own hown
  cases hown

namespace Basis

variable {b : Basis} {brought : Option Blueprint}

theorem soundEntity_of_blueprint (hvalid : b.registry.Valid)
    (hvets : ∀ own, brought = some own → b.registry.Vets own) {keyword : Text} {own : Blueprint}
    (h : b.blueprint brought keyword = .ok own) : b.registry.SoundEntity own.definition := by
  unfold blueprint at h
  split at h
  · rename_i e he
    cases h
    exact hvalid.soundEntity ⟨keyword, by
      rw [Registry.entity, Registry.get, Registry.entity?_eq_some.mp he]⟩
  · rename_i hnone
    split at h
    · rename_i other hother
      split at h
      · rename_i hkey
        cases h
        refine (hvets _ rfl).soundEntity ?_
        rw [← hnone]
        exact Registry.entity?_congr hkey
      · cases h
    · cases h

theorem soundEntity_of_partTypes (hvalid : b.registry.Valid)
    (hvets : ∀ own, brought = some own → b.registry.Vets own) {groups : List Group}
    {parts : List (EntityType × Group)} (h : b.partTypes brought groups = .ok parts) :
    ∀ part ∈ parts, b.registry.SoundEntity part.1 := by
  induction groups generalizing parts with
  | nil =>
    cases h
    nofun
  | cons group rest ih =>
    unfold partTypes at h
    split at h
    · cases h
    · rename_i own hown
      split at h
      · cases h
      · rename_i others hothers
        cases h
        exact List.forall_mem_cons.mpr ⟨soundEntity_of_blueprint hvalid hvets hown, ih hothers⟩

/-- The lookup of a keyword fails for a reason, if it fails. -/
theorem foresees_blueprint (b : Basis) (brought : Option Blueprint) (keyword : Text) :
    Foresees (b.blueprint brought keyword) := by
  unfold blueprint
  repeat' split
  all_goals first
    | exact anyIs_ok _
    | exact anyIs_error nofun

theorem foresees_partTypes (b : Basis) (brought : Option Blueprint) (groups : List Group) :
    Foresees (b.partTypes brought groups) := by
  induction groups with
  | nil => exact anyIs_ok _
  | cons group rest ih =>
    have hown := b.foresees_blueprint brought group.keyword
    unfold partTypes
    split
    · rename_i thrown hthrown
      exact anyIs_error (hown thrown hthrown)
    · split
      · rename_i thrown hothers
        exact anyIs_error (ih thrown hothers)
      · exact anyIs_ok _

/-- Every record is held without a failure of the schema. -/
theorem holds_hold (hvalid : b.registry.Valid)
    (hvets : ∀ own, brought = some own → b.registry.Vets own) (id : Int) (r : Record) :
    b.registry.Holds HeldRecord.links (b.hold brought id r) := by
  unfold hold
  split
  · rename_i group _
    have hown := b.foresees_blueprint brought group.keyword
    split
    · rename_i thrown hthrown
      exact .error (hown thrown hthrown)
    · rename_i own hown
      have hslots := @Site.holds_hold (b.outset id) hvalid _
        (soundEntity_of_blueprint hvalid hvets hown) group.parameters
      split
      · rename_i thrown hthrown
        exact .error (hslots.foresees thrown hthrown)
      · rename_i slots hheld
        exact .ok (hslots.receives slots hheld)
  · rename_i first others _ _
    have hparts := b.foresees_partTypes brought (first :: others)
    split
    · rename_i thrown hthrown
      exact .error (hparts thrown hthrown)
    · rename_i parts hparts
      have hsound := soundEntity_of_partTypes hvalid hvets hparts
      have hheld := @Site.holds_holdParts (b.outset id) hvalid _
        (List.forall_mem_map.mpr hsound) _ hsound
      split
      · rename_i thrown hthrown
        exact .error (hheld.foresees thrown hthrown)
      · rename_i held hmore
        exact .ok (hheld.receives held hmore)

/-! ## Targets -/

theorem keywordIs_answers (hvalid : b.registry.Valid)
    (hvets : ∀ own, brought = some own → b.registry.Vets own) (keyword name : Text) :
    ∃ answer, b.keywordIs brought keyword name = .ok answer := by
  unfold keywordIs
  split
  · exact ⟨true, rfl⟩
  · obtain ⟨answer, hanswer⟩ := hvalid.isSubtype keyword name
    rw [hanswer]
    cases answer with
    | true => exact ⟨true, rfl⟩
    | false =>
      cases brought with
      | none => exact ⟨false, rfl⟩
      | some own =>
        dsimp only
        split
        · obtain ⟨names, hnames⟩ := (hvets own rfl).ancestors
          rw [hnames]
          exact ⟨_, rfl⟩
        · exact ⟨false, rfl⟩

theorem anyOf_answers {α : Type} {test : α → Except SchemaFault Bool} {among : List α}
    (h : ∀ a, ∃ answer, test a = .ok answer) : ∃ answer, anyOf test among = .ok answer := by
  obtain ⟨answer, hanswer, _⟩ :=
    @anyOf_eq_ok _ test (fun a => test a = .ok true) among fun a _ => by
      obtain ⟨answer, hanswer⟩ := h a
      exact ⟨answer, hanswer, by simp [hanswer]⟩
  exact ⟨answer, hanswer⟩

/-- Whether a record is of a type is always decided. -/
theorem recordIs_answers (hvalid : b.registry.Valid)
    (hvets : ∀ own, brought = some own → b.registry.Vets own) (r : Record) (names : List Text) :
    ∃ answer, b.recordIs brought r names = .ok answer :=
  anyOf_answers fun keyword => anyOf_answers fun name => keywordIs_answers hvalid hvets keyword name

/-- The test of a target does not make the schema fail. -/
theorem foresees_checkTarget (hvalid : b.registry.Valid)
    (hvets : ∀ own, brought = some own → b.registry.Vets own) (id : Int) (r : Record)
    {expected : TypeDef} (hexpected : b.registry.Receives expected) (place : Text) :
    Foresees (b.checkTarget brought id r expected place) := by
  obtain ⟨names, hnames⟩ : ∃ names, b.allowed expected = .ok names := by
    cases hexpected with
    | entity e => exact ⟨[e.key], rfl⟩
    | select hnames => exact ⟨_, hnames⟩
  obtain ⟨answer, hanswer⟩ := recordIs_answers hvalid hvets r names
  rw [checkTarget, hnames]
  dsimp only
  rw [hanswer]
  cases answer with
  | true => exact anyIs_ok ()
  | false => exact anyIs_error nofun

/-- With a valid registry, there are only foreseen failures. -/
theorem confined_of_valid (hvalid : b.registry.Valid)
    (hvets : ∀ own, brought = some own → b.registry.Vets own) :
    b.Confined brought (· = .tooLarge) b.registry.Receives where
  held id r := (holds_hold hvalid hvets id r).foresees
  expected {id r held} _ hheld := (holds_hold hvalid hvets id r).receives held hheld
  tested id r _ place hexpected := foresees_checkTarget hvalid hvets id r hexpected place

end Basis

namespace Table

variable {registry : Registry} {settings : Settings} {t : Table}

/-- Whether an instance is what is expected is always decided. -/
theorem checkExpected_cases (hvalid : t.basis.registry.Valid) {expected : Expected}
    (hvets : ∀ own, expected.brought? = some own → t.basis.registry.Vets own) {id : Int}
    {thrown : Thrown} (h : t.checkExpected id expected = .error thrown) :
    ∃ error, thrown = .resolution error ∧ error.reason.Foreseen := by
  unfold checkExpected at h
  split at h
  · cases h
    exact ⟨_, rfl, nofun⟩
  · rename_i r _
    obtain ⟨answer, hanswer⟩ :=
      Basis.recordIs_answers hvalid hvets r [expected.name.upper]
    dsimp only at h
    rw [hanswer] at h
    cases answer <;> cases h
    exact ⟨_, rfl, nofun⟩

namespace Lucid

/-- A resolution keeps foreseen errors only, and it ends with nothing but such an error. -/
theorem resolve_of_valid (hvalid : registry.Valid) (h : t.Lucid (· = .tooLarge) registry settings)
    (id : Int) {expected : Option Expected} (hvetted : Vetted registry expected) :
    (t.resolve id expected).2.Lucid (· = .tooLarge) registry settings ∧
      ∀ thrown, (t.resolve id expected).1 = .error thrown →
        ∃ error, thrown = .resolution error ∧ error.reason.Foreseen := by
  obtain rfl := h.plain.registry
  have hdefault : t.basis.ByDefault (expected.bind Expected.brought?) :=
    h.plain.byDefault fun own hown => (hvetted own hown).byDefault
  obtain ⟨hnext, hforesees⟩ :=
    h.resolve id expected (Basis.confined_of_valid hvalid hvetted) hdefault
  refine ⟨hnext, fun thrown hthrown => ?_⟩
  rcases resolve_fst_eq_error hthrown with hpass | ⟨own, rfl, hunexpected⟩
  · obtain ⟨error, rfl⟩ := Basis.resolve_eq_error hdefault h.plain.idle.closed hpass
    exact ⟨error, rfl, hforesees _ hpass⟩
  · rw [← basis_resolve t id (some own)] at hvalid hvetted
    exact checkExpected_cases hvalid hvetted hunexpected

theorem session_of_valid (hvalid : registry.Valid) {requests : List Request}
    (hvetted : ∀ q ∈ requests, q.Expects (Vetted registry))
    (h : t.Lucid (· = .tooLarge) registry settings) :
    (t.session requests).Lucid (· = .tooLarge) registry settings := by
  refine session_invariant (P := Lucid (· = .tooLarge) registry settings) (vetted_none registry)
    ?_ ?_ ?_ hvetted h
  · intro t u r hadd h
    obtain ⟨hplain, huntouched⟩ := h.plain.add hadd
    exact ⟨hplain, .of_untouched huntouched⟩
  · intro t id expected hexpected h
    exact (h.resolve_of_valid hvalid id hexpected).1
  · exact fun t event h => h.report event

end Lucid

/-- Validation is sound.  With a valid registry, and whatever records are added and asked for by
default, no failure becomes the error of an instance, other than that an integer is too large for a
real: not one that is kept, not one that a resolution ends with, and not one of the report on all
instances.  What is brought along has to pass the checks of the registry too.  And all questions
to the registry about its types have answers. -/
theorem foreseen_of_valid (hvalid : registry.Valid) {requests : List Request}
    (hvetted : ∀ q ∈ requests, q.Expects (Vetted registry))
    (ht : (Table.empty registry .initial settings).session requests = t) :
    (∀ id error, t.standing id = .failed error → error.reason.Foreseen) ∧
    (∀ id expected, Vetted registry expected → ∀ thrown,
      (t.resolve id expected).1 = .error thrown →
        ∃ error, thrown = .resolution error ∧ error.reason.Foreseen) ∧
    (∃ report, t.resolveAll.1 = .ok report ∧
      ∀ failure ∈ report.failures, failure.2.reason.Foreseen) ∧
    registry.Answers := by
  have hlucid := (Lucid.empty _ registry settings).session_of_valid hvalid hvetted
  rw [ht] at hlucid
  have hconfined : t.basis.Confined none (· = .tooLarge) t.basis.registry.Receives :=
    Basis.confined_of_valid (hlucid.plain.registry ▸ hvalid) nofun
  exact ⟨fun id error hfailed => hlucid.clear.failed hfailed,
    fun id expected hexpected => (hlucid.resolve_of_valid hvalid id hexpected).2,
    hlucid.resolveAll hconfined, hvalid.answers⟩

end Table

/-! ## Samples -/

namespace Sample

/-- Points, labels, and marks at one of both. -/
def plan : Registry :=
  [.defined "LABEL" (.ref "STRING"), .select "PLACE" ["POINT", "LABEL"],
    .entity ⟨"POINT", [⟨"x", .ref "REAL", false, false⟩], [], false, []⟩,
    .entity ⟨"MARK", [⟨"at", .ref "PLACE", false, false⟩], [], false, []⟩].foldl
    (fun r t => (r.register t false).toOption.getD r) (.initial "plan")

/-- An entity type with an attribute of the given type. -/
def ghost (type : TypeDef) : Blueprint :=
  ⟨⟨"GHOST", [⟨"of", type, false, false⟩], [], false, []⟩, .default⟩

/-- A simple record with one parameter. -/
def single (id : Int) (keyword : Text) (p : Parameter) : Record :=
  ⟨some id, .simple ⟨keyword, [p]⟩, none, none⟩

/-- A point that is too far away, a mark that is at no place, and a ghost of a mark. -/
def planned : List Request :=
  [.add (single 1 "POINT" (.integer (10 ^ 400))), .add (single 2 "MARK" (.typed "COLOUR" .unset)),
    .add (single 3 "GHOST" (.reference 2)),
    .resolve 3 (some (.blueprint (ghost (.ref "MARK")))), .resolveAll]

/-- The table behind these requests. -/
def planTable : Table := (Table.empty plan .initial .default).session planned

/-- A table with a ghost, and without any types but the simple ones. -/
def haunted : Table := (Table.empty (.initial "plan") .initial .default).session
  [.add (single 1 "GHOST" (.integer 1))]

end Sample

namespace Table

theorem foreseen_of_valid_plan :
    Sample.plan.Valid ∧ (∀ q ∈ Sample.planned, q.Expects (Vetted Sample.plan)) ∧
      (∃ error, Sample.planTable.standing 1 = .failed error ∧ error.reason.Foreseen) ∧
      (∃ error, (Sample.planTable.resolve 3 none).1 = .error (.resolution error) ∧
        error.reason.Foreseen) ∧
      (∃ report, Sample.planTable.resolveAll.1 = .ok report ∧
        ∀ failure ∈ report.failures, failure.2.reason.Foreseen) ∧ Sample.plan.Answers := by
  have hvalid : Sample.plan.Valid := ⟨rfl, by decide +kernel⟩
  have hvetted : ∀ q ∈ Sample.planned, q.Expects (Vetted Sample.plan) := by
    have hnone : Sample.plan.entity? "GHOST" = none := rfl
    have hghost : Sample.plan.Vets (Sample.ghost (.ref "MARK")) :=
      ⟨⟨rfl, fun e he => by cases hnone.symm.trans he⟩, fun _ => ⟨_, rfl⟩,
        fun _ => ⟨by decide +kernel, rfl⟩⟩
    simp only [Sample.planned, List.forall_mem_cons, List.not_mem_nil, false_implies,
      implies_true, Request.Expects, and_true, true_and]
    intro own hown
    exact Option.some.inj hown ▸ hghost
  obtain ⟨hkept, hraised, hreport, hanswers⟩ :=
    @foreseen_of_valid _ .default _ hvalid _ hvetted rfl
  have hrefused : (Sample.planTable.resolve 3 none).1.isOk = false := by decide +kernel
  have hname : (Sample.planTable.standing 1).name = "failed" := by decide +kernel
  refine ⟨hvalid, hvetted, ?_, ?_, hreport, hanswers⟩
  · cases hstanding : Sample.planTable.standing 1 with
    | failed error => exact ⟨error, rfl, hkept 1 error hstanding⟩
    | _ =>
      rw [hstanding] at hname
      exact absurd hname (by dsimp only [Standing.name]; decide)
  · cases hanswer : (Sample.planTable.resolve 3 none).1 with
    | ok value =>
      rw [hanswer] at hrefused
      cases hrefused
    | error thrown =>
      obtain ⟨error, rfl, hreason⟩ := hraised 3 none (vetted_none _) thrown hanswer
      exact ⟨error, rfl, hreason⟩

/-- An entity type that is brought along, and names a type that there is not, makes the schema
fail, though nothing is wrong with the registry. -/
theorem unforeseen_of_ghost :
    (Registry.initial "plan").Valid ∧
      ∃ error, (Sample.haunted.resolve 1 (some (.blueprint (Sample.ghost (.ref "NOWHERE"))))).1 =
          .error (.resolution error) ∧
        error.reason = .construction (.schema (.of (.undefined "NOWHERE"))) ∧
        ¬ error.reason.Foreseen := by
  refine ⟨⟨rfl, by decide +kernel⟩, _, rfl, rfl, fun hforeseen => ?_⟩
  cases hforeseen _ rfl

end Table

end Part21
