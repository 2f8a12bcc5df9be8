import Part21.Proofs.Schema.Ancestry
import Part21.Resolution.Inventory

set_option autoImplicit false

/-!
# Kept answers

A catalogue keeps answers by the names of entity types.  What it keeps for a registered entity type
is what the registry would answer now (`Catalogue.Tracks`): no other registered entity type has the
name, and an answer about one that is brought along is never kept.  Every question preserves this
and is answered as by the registry (`Catalogue.Answers`), and a registration forgets all answers.

So an inventory replies to each call as if it had never been asked anything
(`Inventory.transparent_after`).
-/

namespace Part21

namespace Catalogue

/-! ## What is kept -/

/-- What is kept for registered entity types is what `ask` answers. -/
def Current {α : Type} (r : Registry) (ask : EntityType → Except SchemaFault α)
    (kept : Text → Option α) : Prop :=
  ∀ e, r.IsRegistered e → ∀ answer, kept e.key = some answer → ask e = .ok answer

/-- Nothing is kept at first. -/
theorem current_nothing {α : Type} (r : Registry) (ask : EntityType → Except SchemaFault α) :
    Current r ask fun _ => none :=
  fun _ _ _ h => nomatch h

/-- An answer about a registered entity type may be kept: no other one has its name. -/
theorem Current.keep {α : Type} {r : Registry} {ask : EntityType → Except SchemaFault α}
    {kept : Text → Option α} (h : Current r ask kept) {e : EntityType} (he : r.IsRegistered e)
    {answer : α} (hanswer : ask e = .ok answer) : Current r ask (keep kept e.key answer) := by
  intro other hother found hfound
  unfold Catalogue.keep at hfound
  split at hfound
  · rename_i hkey
    obtain rfl := Option.some.inj hfound
    rw [hother.eq_of_key he hkey, hanswer]
  · exact h other hother found hfound

/-- A catalogue of a registry keeps only what the registry answers. -/
structure Tracks (r : Registry) (c : Catalogue) : Prop where
  registry : c.registry = r
  ancestors : Current r r.ancestors c.keptAncestors
  attributes : Current r r.attributesOf c.keptAttributes

theorem tracks_ofRegistry (r : Registry) : Tracks r (ofRegistry r) :=
  ⟨rfl, current_nothing r r.ancestors, current_nothing r r.attributesOf⟩

/-- An answer is that of the registry, and the catalogue behind it keeps only such answers. -/
structure Answers {α : Type} (r : Registry) (answer : Except SchemaFault α × Catalogue)
    (fresh : Except SchemaFault α) : Prop where
  eq : answer.1 = fresh
  tracks : Tracks r answer.2

/-- What such an answer can be. -/
theorem Answers.cases {α : Type} {r : Registry} {answer : Except SchemaFault α × Catalogue}
    {fresh : Except SchemaFault α} (h : Answers r answer fresh) :
    ∃ c, Tracks r c ∧ ((∃ fault, answer = (.error fault, c) ∧ fresh = .error fault) ∨
      ∃ a, answer = (.ok a, c) ∧ fresh = .ok a) := by
  obtain ⟨found, c⟩ := answer
  refine ⟨c, h.tracks, ?_⟩
  cases found with
  | error fault => exact .inl ⟨fault, rfl, h.eq.symm⟩
  | ok a => exact .inr ⟨a, rfl, h.eq.symm⟩

/-! ## Questions -/

section Questions

variable {r : Registry} {c : Catalogue} (h : Tracks r c)
include h

theorem answers_ancestorsOf {e : EntityType} (he : r.IsRegistered e) :
    Answers r (c.ancestorsOf e) (r.ancestors e) := by
  unfold ancestorsOf
  cases hkept : c.keptAncestors e.key with
  | some names => exact ⟨(h.ancestors e he names hkept).symm, h⟩
  | none =>
    dsimp only
    rw [h.registry]
    cases hnames : r.ancestors e with
    | error fault => exact ⟨rfl, h⟩
    | ok names => exact ⟨rfl, ⟨rfl, h.ancestors.keep he hnames, h.attributes⟩⟩

theorem answers_ancestors (s : Subject) :
    Answers r (c.ancestors s) ((c.definition s).bind r.ancestors) := by
  cases s with
  | brought definition => exact ⟨congrArg (Registry.ancestors · definition) h.registry, h⟩
  | registered name =>
    unfold ancestors definition
    dsimp only
    rw [h.registry]
    cases hname : r.entity name with
    | error fault => exact ⟨rfl, h⟩
    | ok e => exact answers_ancestorsOf h ⟨name, hname⟩

theorem answers_isSubtype (sub sup : Text) :
    Answers r (c.isSubtype sub sup) (r.isSubtype sub sup) := by
  unfold isSubtype Registry.isSubtype
  rw [h.registry]
  cases hsub : r.entity? sub with
  | none => exact ⟨rfl, h⟩
  | some e =>
    have he : r.IsRegistered e := Registry.isRegistered_of_entity? hsub
    dsimp only
    obtain ⟨c', htracks, ⟨fault, hkept, hfresh⟩ | ⟨names, hkept, hfresh⟩⟩ :=
      (answers_ancestorsOf h he).cases <;> rw [hkept, hfresh]
    · exact ⟨rfl, htracks⟩
    · exact ⟨rfl, htracks⟩

theorem answers_attributesOf (s : Subject) :
    Answers r (c.attributesOf s) ((c.definition s).bind r.attributesOf) := by
  cases s with
  | brought definition => exact ⟨congrArg (Registry.attributesOf · definition) h.registry, h⟩
  | registered name =>
    unfold attributesOf definition
    dsimp only
    rw [h.registry]
    cases hname : r.entity name with
    | error fault => exact ⟨rfl, h⟩
    | ok e =>
      have he : r.IsRegistered e := ⟨name, hname⟩
      dsimp only [Except.bind]
      cases hkept : c.keptAttributes e.key with
      | some all => exact ⟨(h.attributes e he all hkept).symm, h⟩
      | none =>
        dsimp only
        cases hall : r.attributesOf e with
        | error fault => exact ⟨rfl, h⟩
        | ok all => exact ⟨rfl, ⟨rfl, h.ancestors, h.attributes.keep he hall⟩⟩

/-! ### Validation -/

omit h in
theorem answers_checkOverrides {c : Catalogue} (h : Tracks r c) {e : EntityType}
    (he : r.IsRegistered e) (overrides : List (Text × Text)) :
    Answers r (c.checkOverrides e overrides) (r.checkOverrides e overrides) := by
  induction overrides generalizing c with
  | nil => exact ⟨rfl, h⟩
  | cons first rest ih =>
    obtain ⟨owner, redeclared⟩ := first
    unfold checkOverrides Registry.checkOverrides
    obtain ⟨c', htracks, ⟨fault, hkept, hfresh⟩ | ⟨names, hkept, hfresh⟩⟩ :=
      (answers_ancestorsOf h he).cases <;> rw [hkept, hfresh] <;> dsimp only
    · exact ⟨rfl, htracks⟩
    · split
      · exact ih htracks
      · exact ⟨rfl, htracks⟩

theorem answers_checkRegistered {entry : Text × TypeDef} (hentry : entry ∈ r.types) :
    Answers r (c.checkRegistered entry.2) (r.checkRegistered entry.2) := by
  cases htype : entry.2 with
  | entity e =>
    have hfind := Registry.find?_of_mem_types hentry
    rw [htype] at hfind
    have he : r.IsRegistered e :=
      Registry.isRegistered_of_entity? (Registry.entity?_eq_some.mpr hfind)
    unfold checkRegistered Registry.checkRegistered
    dsimp only
    rw [h.registry]
    cases r.linearization e with
    | error fault => exact ⟨rfl, h⟩
    | ok chain =>
      dsimp only
      cases r.checkAttributes e.attributes with
      | error fault => exact ⟨rfl, h⟩
      | ok => exact answers_checkOverrides h he e.overrides
  | _ =>
    unfold checkRegistered
    exact ⟨by rw [h.registry], h⟩

omit h in
theorem answers_checkAll {c : Catalogue} (h : Tracks r c) {entries : List (Text × TypeDef)}
    (hentries : ∀ entry ∈ entries, entry ∈ r.types) :
    Answers r (c.checkAll entries) (r.checkAll entries) := by
  induction entries generalizing c with
  | nil => exact ⟨rfl, h⟩
  | cons entry rest ih =>
    obtain ⟨hentry, hrest⟩ := List.forall_mem_cons.mp hentries
    unfold checkAll Registry.checkAll
    obtain ⟨c', htracks, ⟨fault, hkept, hfresh⟩ | ⟨⟨⟩, hkept, hfresh⟩⟩ :=
      (answers_checkRegistered h hentry).cases <;> rw [hkept, hfresh]
    · exact ⟨rfl, htracks⟩
    · exact ih htracks hrest

theorem answers_validate : Answers r c.validate r.validate := by
  rw [validate, h.registry]
  exact answers_checkAll h fun _ hentry => hentry

end Questions

end Catalogue

namespace Inventory

open Catalogue (Tracks)

/-! ## Calls -/

/-- The reply to a call that follows from the registered types alone. -/
def reply (r : Registry) : Call → Except SchemaFault Reply
  | .register t _ holder => (r.register t holder.isSome).map fun _ => .done
  | .bind name _ => (r.entity name).map fun _ => .done
  | .attributesOf s => (((Catalogue.ofRegistry r).definition s).bind r.attributesOf).map .attributes
  | .ownAttributes s others => ((Catalogue.ofRegistry r).ownAttributes s others).map .attributes
  | .ancestors s => (((Catalogue.ofRegistry r).definition s).bind r.ancestors).map .names
  | .isSubtype sub sup => (r.isSubtype sub sup).map .truth
  | .validate => r.validate.map fun _ => .done

/-- The registered types behind a call.  Only a registration that is taken changes them. -/
def typesBehind (r : Registry) : Call → Registry
  | .register t _ holder =>
    match r.register t holder.isSome with
    | .error _ => r
    | .ok more => more
  | _ => r

variable {r : Registry} {i : Inventory}

/-- An answer of the catalogue is passed on as the reply. -/
theorem question_tracks {α : Type} {answer : Except SchemaFault α × Catalogue}
    {fresh : Except SchemaFault α} (h : Catalogue.Answers r answer fresh) (wrap : α → Reply) :
    (i.question wrap answer).1 = fresh.map wrap ∧
      Tracks r (i.question wrap answer).2.catalogue :=
  ⟨congrArg (Except.map wrap) h.eq, h.tracks⟩

theorem definition_eq (h : Tracks r i.catalogue) (s : Subject) :
    i.catalogue.definition s = (Catalogue.ofRegistry r).definition s := by
  cases s with
  | brought definition => rfl
  | registered name => exact congrArg (Registry.entity · name) h.registry

theorem definitions_eq (h : Tracks r i.catalogue) (subjects : List Subject) :
    i.catalogue.definitions subjects = (Catalogue.ofRegistry r).definitions subjects := by
  induction subjects with
  | nil => rfl
  | cons s rest ih => rw [Catalogue.definitions, Catalogue.definitions, definition_eq h, ih]

/-- A change that fails is none. -/
theorem change_eq_self {changed : Except SchemaFault Inventory} {fault : SchemaFault}
    (h : (i.change changed).1 = .error fault) : (i.change changed).2 = i := by
  cases changed with
  | error fault => rfl
  | ok more => cases h

theorem register_tracks (h : Tracks r i.catalogue) (t : TypeDef) (own : Maker)
    (holder : Option Holder) :
    (i.change (i.register t own holder)).1 = reply r (.register t own holder) ∧
      Tracks (typesBehind r (.register t own holder))
        (i.change (i.register t own holder)).2.catalogue := by
  unfold register Catalogue.register
  rw [h.registry]
  dsimp only [reply, typesBehind]
  cases r.register t holder.isSome with
  | error fault => exact ⟨rfl, h⟩
  | ok more => exact ⟨rfl, Catalogue.tracks_ofRegistry more⟩

theorem bind_tracks (h : Tracks r i.catalogue) (name : Text) (factory : Factory) :
    (i.change (i.bind name factory)).1 = reply r (.bind name factory) ∧
      Tracks r (i.change (i.bind name factory)).2.catalogue := by
  unfold bind registry
  rw [h.registry]
  dsimp only [reply]
  cases r.entity name with
  | error fault => exact ⟨rfl, h⟩
  | ok e => exact ⟨rfl, h⟩

/-- A call is replied to from the registered types, and then the catalogue keeps only what the types
behind the call answer. -/
theorem perform_tracks (h : Tracks r i.catalogue) (call : Call) :
    (i.perform call).1 = reply r call ∧
      Tracks (typesBehind r call) (i.perform call).2.catalogue := by
  cases call with
  | register t own holder => exact register_tracks h t own holder
  | bind name factory => exact bind_tracks h name factory
  | attributesOf s =>
    exact question_tracks (definition_eq h s ▸ Catalogue.answers_attributesOf h s) .attributes
  | ownAttributes s others =>
    have hown : i.catalogue.ownAttributes s others =
        (Catalogue.ofRegistry r).ownAttributes s others := by
      rw [Catalogue.ownAttributes, definitions_eq h, h.registry]
      rfl
    exact question_tracks ⟨hown, h⟩ .attributes
  | ancestors s =>
    exact question_tracks (definition_eq h s ▸ Catalogue.answers_ancestors h s) .names
  | isSubtype sub sup => exact question_tracks (Catalogue.answers_isSubtype h sub sup) .truth
  | validate => exact question_tracks (Catalogue.answers_validate h) fun _ => .done

/-- Behind any calls the catalogue keeps only what the types registered so far answer. -/
theorem after_tracks (h : Tracks r i.catalogue) (calls : List Call) :
    Tracks (calls.foldl typesBehind r) (i.after calls).catalogue := by
  induction calls generalizing r i with
  | nil => exact h
  | cons call rest ih => exact ih (perform_tracks h call).2

/-- An inventory replies to every call as one of the same types that has not been asked anything.
A registration that fails changes neither the types nor any reply. -/
structure Transparent (i : Inventory) : Prop where
  reply : ∀ call, (i.perform call).1 = ((ofRegistry i.registry i.makers).perform call).1
  refused : ∀ t own holder fault, (i.perform (.register t own holder)).1 = .error fault →
    (i.perform (.register t own holder)).2.registry = i.registry ∧
      ∀ call, ((i.perform (.register t own holder)).2.perform call).1 = (i.perform call).1

/-- What an inventory was asked before does not show.  Behind any calls it has the types that were
registered, and it is transparent. -/
theorem transparent_after (r : Registry) (makers : Makers) (calls : List Call) :
    ((ofRegistry r makers).after calls).registry = calls.foldl typesBehind r ∧
      ((ofRegistry r makers).after calls).Transparent := by
  have htracks := after_tracks (i := ofRegistry r makers) (Catalogue.tracks_ofRegistry r) calls
  have hregistry := htracks.registry
  generalize (ofRegistry r makers).after calls = i at htracks hregistry ⊢
  refine ⟨hregistry, fun call => ?_, fun t own holder fault hfault => ?_⟩
  · have hfresh := (perform_tracks (i := ofRegistry i.registry i.makers)
      (Catalogue.tracks_ofRegistry i.registry) call).1
    rw [hfresh, (perform_tracks htracks call).1]
    exact congrArg (Inventory.reply · call) hregistry.symm
  · have hsame : (i.perform (.register t own holder)).2 = i := change_eq_self hfault
    rw [hsame]
    exact ⟨rfl, fun _ => rfl⟩

/-- A supertype is registered after it was missed, and behind a question about a type of the same
name that is brought along. -/
theorem transparent_after_late :
    (((ofRegistry (.initial "sample") .initial).after
        [.register (.entity ⟨"LAMP", [], ["BODY"], false, []⟩) .default none,
          .ancestors (.registered "LAMP"), .ancestors (.brought ⟨"LAMP", [], [], false, []⟩),
          .register (.entity ⟨"BODY", [], [], false, []⟩) .default none]).perform
      (.ancestors (.registered "lamp"))).1 = .ok (.names ["LAMP", "BODY"]) := by
  rw [(transparent_after _ _ _).2.reply]
  rfl

end Inventory

end Part21
