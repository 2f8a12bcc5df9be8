import Part21.Proofs.Schema.Validation

set_option autoImplicit false

/-!
# Types in reach of a select

From a select its options lead to types and to further selects.  A search for entity types looks
through references and defined types on the way; a search for the type of a keyword takes an option
as it is.  So there are two ways to be in reach, which differ only in how a registered type leads to
another (`Registry.Reaches`).

Where every select is registered and no type is defined by itself, both searches find what is in
reach and nothing else (`Registry.searches_of_selectable`).  What keeps the first one from its answer
is an option in reach that is not registered or leads to a name that is not (`Registry.Dangles`).
The order of the options decides which of several such faults is reported, and nothing else.
-/

namespace Part21

/-! ## Order of options -/

/-- The same type, apart from the order in which selects list their options. -/
inductive TypeDef.Reordered : TypeDef → TypeDef → Prop
  | refl (t : TypeDef) : Reordered t t
  | select (name : Text) {options more : List Text} (hperm : options.Perm more) :
      Reordered (.select name options) (.select name more)
  | defined (name : Text) {t u : TypeDef} (h : Reordered t u) :
      Reordered (.defined name t) (.defined name u)

/-- The same select, apart from the order of its options. -/
structure SelectType.Reordered (s own : SelectType) : Prop where
  name : s.name = own.name
  options : s.options.Perm own.options

namespace TypeDef

variable {t u : TypeDef}

theorem Reordered.symm (h : Reordered t u) : Reordered u t := by
  induction h with
  | refl t => exact .refl t
  | select name hperm => exact .select name hperm.symm
  | defined name _ ih => exact .defined name ih

/-- A select stays a select. -/
theorem Reordered.of_select {s : SelectType} (h : Reordered (.select s.name s.options) u) :
    ∃ own : SelectType, u = .select own.name own.options ∧ s.Reordered own := by
  cases h with
  | refl => exact ⟨s, rfl, rfl, .refl _⟩
  | @select _ _ more hperm => exact ⟨⟨s.name, more⟩, rfl, rfl, hperm⟩

theorem Reordered.name (h : Reordered t u) : t.name = u.name := by
  cases h <;> rfl

theorem Reordered.isEntity (h : Reordered t u) : t.isEntity = u.isEntity := by
  cases h <;> rfl

end TypeDef

theorem SelectType.Reordered.symm {s own : SelectType} (h : s.Reordered own) : own.Reordered s :=
  ⟨h.name.symm, h.options.symm⟩

namespace Registry

open Relation (ReflTransGen TransGen)

variable {r q : Registry} {s own : SelectType} {t u : TypeDef} {stack : List SelectType}
  {seen found names : List Text} {steps : Nat}

/-- Under each name both registries have the same type, apart from the order of options. -/
def Reordered (r q : Registry) : Prop :=
  ∀ name, Option.Rel TypeDef.Reordered (r.find? name) (q.find? name)

namespace Reordered

theorem symm (h : r.Reordered q) : q.Reordered r := by
  intro name
  have hname := h name
  generalize r.find? name = mine, q.find? name = other at hname
  cases hname with
  | some hsame => exact .some hsame.symm
  | none => exact .none

theorem find? (h : r.Reordered q) {name : Text} (hfind : r.find? name = some t) :
    ∃ u, q.find? name = some u ∧ t.Reordered u := by
  have hname := h name
  rw [hfind] at hname
  generalize q.find? name = other at hname
  cases hname with
  | some hsame => exact ⟨_, rfl, hsame⟩

theorem find?_eq_none (h : r.Reordered q) {name : Text} (hnone : r.find? name = none) :
    q.find? name = none := by
  have hname := h name
  rw [hnone] at hname
  generalize q.find? name = other at hname
  cases hname
  rfl

theorem unfolds (h : r.Reordered q) {v : TypeDef} (htu : t.Reordered u) (hunfolds : r.Unfolds t v) :
    ∃ w, q.Unfolds u w ∧ v.Reordered w := by
  cases hunfolds with
  | ref hfind =>
    cases htu with
    | refl =>
      obtain ⟨w, hother, hsame⟩ := h.find? hfind
      exact ⟨w, .ref hother, hsame⟩
  | defined name =>
    cases htu with
    | refl => exact ⟨v, .defined name v, .refl v⟩
    | defined _ hsame => exact ⟨_, .defined name _, hsame⟩

theorem standsFor (h : r.Reordered q) {v : TypeDef} (htu : t.Reordered u) (hstands : r.StandsFor t v) :
    ∃ w, q.StandsFor u w ∧ v.Reordered w := by
  induction hstands with
  | refl => exact ⟨u, .refl, htu⟩
  | tail _ hunfolds ih =>
    obtain ⟨w, hw, hsame⟩ := ih
    obtain ⟨next, hnext, hsame⟩ := h.unfolds hsame hunfolds
    exact ⟨next, hw.tail hnext, hsame⟩

end Reordered

/-! ## Being in reach -/

/-- An option of the one select leads to the other. -/
def Opens (r : Registry) (leads : TypeDef → TypeDef → Prop) (s own : SelectType) : Prop :=
  ∃ option ∈ s.options, ∃ t, r.find? option = some t ∧ leads t (.select own.name own.options)

/-- An option leads to the type, of the select itself or of one that its options lead to. -/
def Reaches (r : Registry) (leads : TypeDef → TypeDef → Prop) (s : SelectType) (u : TypeDef) : Prop :=
  ∃ own, ReflTransGen (r.Opens leads) s own ∧
    ∃ option ∈ own.options, ∃ t, r.find? option = some t ∧ leads t u

/-- What keeps the entity types of a select from being named: an option that is not registered, or
one that leads to a name that is not. -/
inductive Dangles (r : Registry) (s : SelectType) : SchemaFault → Prop
  | unknownOption {own : SelectType} {option : Text} (hreach : ReflTransGen (r.Opens r.StandsFor) s own)
      (hmem : option ∈ own.options) (hnone : r.find? option = none) :
      Dangles r s (.unknownOption own.name option)
  | undefined {name : Text} (hreach : r.Reaches r.StandsFor s (.ref name))
      (hnone : r.find? name = none) : Dangles r s (.undefined name)

theorem Reaches.head {leads : TypeDef → TypeDef → Prop} (hopens : r.Opens leads s own)
    (h : r.Reaches leads own u) : r.Reaches leads s u := by
  obtain ⟨last, hreach, hoption⟩ := h
  exact ⟨last, .head hopens hreach, hoption⟩

theorem Dangles.head {fault : SchemaFault} (hopens : r.Opens r.StandsFor s own)
    (h : r.Dangles own fault) : r.Dangles s fault := by
  cases h with
  | unknownOption hreach hmem hnone => exact .unknownOption (.head hopens hreach) hmem hnone
  | undefined hreach hnone => exact .undefined (hreach.head hopens) hnone

theorem offers_iff_reaches : r.Offers s.options t ↔ r.Reaches Eq s t := by
  constructor
  · intro h
    generalize hoptions : s.options = options at h
    induction h generalizing s with
    | @here options option t hmem hfind => exact ⟨s, .refl, option, hoptions ▸ hmem, t, hfind, rfl⟩
    | @inside options more option name t hmem hfind _ ih =>
      have hopens : r.Opens Eq s ⟨name, more⟩ := ⟨option, hoptions ▸ hmem, _, hfind, rfl⟩
      exact (ih rfl).head hopens
  · rintro ⟨own, hreach, option, hmem, _, hfind, rfl⟩
    induction hreach using ReflTransGen.head_induction_on with
    | refl => exact .here hmem hfind
    | head hopens _ ih =>
      obtain ⟨_, hother, _, hselect, rfl⟩ := hopens
      exact .inside hother hselect ih

theorem reaches_of_offersEntity {e : EntityType} (h : r.OffersEntity s.options e) :
    r.Reaches r.StandsFor s (.entity e) := by
  generalize hoptions : s.options = options at h
  induction h generalizing s with
  | @here options option t e hmem hfind hstands =>
    exact ⟨s, .refl, option, hoptions ▸ hmem, t, hfind, hstands⟩
  | @inside options more option name t e hmem hfind hstands _ ih =>
    have hopens : r.Opens r.StandsFor s ⟨name, more⟩ := ⟨option, hoptions ▸ hmem, t, hfind, hstands⟩
    exact (ih rfl).head hopens

/-! ## What an option stands for -/

/-- Whoever is led to the end of the way by references and defined types has what is found there. -/
theorem underlying_of_standsFor {answer : Except SchemaFault TypeDef} (h : r.StandsFor t u)
    (hend : r.underlyingWithin 1 u = answer) (hanswer : answer ≠ .error .endless) :
    r.underlying t = answer := by
  obtain ⟨references, hreferences⟩ : ∃ references, r.underlyingWithin references t = answer := by
    induction h using ReflTransGen.head_induction_on with
    | refl => exact ⟨1, hend⟩
    | head hfirst _ ih =>
      obtain ⟨references, hreferences⟩ := ih
      cases hfirst with
      | ref hfind =>
        refine ⟨references + 1, ?_⟩
        simp only [underlyingWithin, throughDefined, hfind]
        exact hreferences
      | defined =>
        refine ⟨references, ?_⟩
        cases references <;> exact hreferences
  rw [← underlyingWithin_eq_underlying (Nat.le_add_left r.referenceLimit references),
    underlyingWithin_of_le (Nat.le_add_right references r.referenceLimit) (hreferences ▸ hanswer),
    hreferences]

theorem optionTarget_of_entity {select option : Text} {e : EntityType} (hfind : r.find? option = some t)
    (hstands : r.StandsFor t (.entity e)) : r.optionTarget select option = .ok ([e.key], []) := by
  have hunderlying : r.underlying t = .ok (.entity e) := underlying_of_standsFor hstands rfl nofun
  simp only [optionTarget, hfind, hunderlying]

theorem optionTarget_of_select {select option : Text} (hfind : r.find? option = some t)
    (hstands : r.StandsFor t (.select own.name own.options)) :
    r.optionTarget select option = .ok ([], [own]) := by
  have hunderlying : r.underlying t = .ok (.select own.name own.options) :=
    underlying_of_standsFor hstands rfl nofun
  simp only [optionTarget, hfind, hunderlying]

theorem optionTarget_of_undefined {select option name : Text} (hfind : r.find? option = some t)
    (hstands : r.StandsFor t (.ref name)) (hnone : r.find? name = none) :
    r.optionTarget select option = .error (.undefined name) := by
  have hend : r.underlyingWithin 1 (.ref name) = .error (.undefined name) := by
    simp only [underlyingWithin, throughDefined, hnone]
  have hunderlying : r.underlying t = .error (.undefined name) :=
    underlying_of_standsFor hstands hend (by simp)
  simp only [optionTarget, hfind, hunderlying]

/-- An answer about all options has the answers about each. -/
theorem optionTarget_of_optionTargets {select : Text} {options entities : List Text}
    {selects : List SelectType} (h : r.optionTargets select options = .ok (entities, selects)) :
    ∀ option ∈ options, ∃ first above, r.optionTarget select option = .ok (first, above) ∧
      first ⊆ entities ∧ above ⊆ selects := by
  induction options generalizing entities selects with
  | nil => nofun
  | cons option rest ih =>
    unfold optionTargets at h
    split at h
    · cases h
    · rename_i first above hfirst
      split at h
      · cases h
      · rename_i others more hothers
        cases h
        refine List.forall_mem_cons.mpr
          ⟨⟨first, above, hfirst, List.subset_append_left _ _, List.subset_append_left _ _⟩, ?_⟩
        intro other hmem
        obtain ⟨own, further, hown, hentities, hselects⟩ := ih hothers other hmem
        exact ⟨own, further, hown, List.subset_append_of_subset_right _ hentities,
          List.subset_append_of_subset_right _ hselects⟩

theorem optionTarget_of_optionTargets_eq_error {select : Text} {options : List Text}
    {fault : SchemaFault} (h : r.optionTargets select options = .error fault) :
    ∃ option ∈ options, r.optionTarget select option = .error fault := by
  induction options with
  | nil => cases h
  | cons option rest ih =>
    unfold optionTargets at h
    split at h
    · rename_i own hfirst
      cases h
      exact ⟨option, List.mem_cons_self, hfirst⟩
    · split at h
      · rename_i own hothers
        cases h
        obtain ⟨other, hmem, hother⟩ := ih hothers
        exact ⟨other, List.mem_cons_of_mem option hmem, hother⟩
      · cases h

theorem opens_of_optionTargets {entities : List Text} {selects : List SelectType}
    (h : r.optionTargets s.name s.options = .ok (entities, selects)) :
    ∀ own ∈ selects, r.Opens r.StandsFor s own := by
  intro own hown
  exact (selects_of_optionTargets h).2 own hown

/-! ## Faults of a search -/

theorem dangles_of_optionTargets {fault : SchemaFault}
    (h : r.optionTargets s.name s.options = .error fault) (hfault : fault ≠ .endless) :
    r.Dangles s fault := by
  obtain ⟨option, hmem, htarget⟩ := optionTarget_of_optionTargets_eq_error h
  unfold optionTarget at htarget
  split at htarget
  · rename_i hnone
    cases htarget
    exact .unknownOption .refl hmem hnone
  · rename_i t hfind
    split at htarget
    · rename_i own hunderlying
      cases htarget
      obtain ⟨name, hstands, hnone, rfl⟩ := undefined_of_underlyingWithin hunderlying hfault
      exact .undefined ⟨s, .refl, option, hmem, t, hfind, hstands⟩ hnone
    all_goals cases htarget

theorem dangles_of_collectEntities {fault : SchemaFault}
    (h : r.collectEntities steps stack seen found = .error fault) (hfault : fault ≠ .endless) :
    ∃ s ∈ stack, r.Dangles s fault := by
  induction steps generalizing stack seen found with
  | zero => cases h
  | succ steps ih =>
    cases stack with
    | nil => cases h
    | cons current stack =>
      unfold collectEntities at h
      split at h
      · obtain ⟨s, hs, hdangles⟩ := ih h
        exact ⟨s, List.mem_cons_of_mem current hs, hdangles⟩
      · split at h
        · rename_i own htargets
          cases h
          exact ⟨current, List.mem_cons_self, dangles_of_optionTargets htargets hfault⟩
        · rename_i entities selects htargets
          obtain ⟨s, hs, hdangles⟩ := ih h
          rcases List.mem_append.mp hs with hnew | hold
          · have hopens := opens_of_optionTargets htargets s (List.mem_reverse.mp hnew)
            exact ⟨current, List.mem_cons_self, hdangles.head hopens⟩
          · exact ⟨s, List.mem_cons_of_mem current hold, hdangles⟩

/-! ## Registries of registered selects -/

/-- Every select is registered, also one that is written out in a defined type, and no type is
defined by itself. -/
structure Selectable (r : Registry) : Prop where
  registered : ∀ s, r.Writes s → r.find? s.name = some (.select s.name s.options)
  acyclic : ∀ entry ∈ r.types, ¬ TransGen r.Unfolds entry.2 entry.2

namespace Selectable

/-- No two selects have one name. -/
theorem unique (hr : r.Selectable) (hs : r.Writes s) (hown : r.Writes own)
    (hname : s.name.upper = own.name.upper) : s = own := by
  have hfind := hr.registered s hs
  rw [find?_congr hname, hr.registered own hown] at hfind
  obtain ⟨hsame, hoptions⟩ := TypeDef.select.inj (Option.some.inj hfind)
  cases s
  cases own
  cases hsame
  cases hoptions
  rfl

theorem not_endless (hr : r.Selectable) {fault : SchemaFault} (h : r.selectEntities s = .error fault) :
    fault ≠ .endless := by
  rintro rfl
  cases withholds_of_selectEntities h with
  | endless hoffers =>
    obtain ⟨_, _, hendless⟩ := hoffers.exists_endless
    obtain ⟨_, u, hfind, _, hcircle⟩ :=
      circle_of_underlying (underlying_eq_endless_iff.mpr hendless)
    exact hr.acyclic _ (mem_types_of_find? hfind) hcircle

/-- A registered select can be searched with all that is to be looked at in it. -/
theorem room (hs : r.Writes s) : r.Room (r.selectSteps s) [s] [] where
  enough := by
    have hcount := total_mono (r := r) (TypeDef.unseenOptions_le [])
    rw [selectSteps, List.length_singleton]
    omega
  writes own hown := List.mem_singleton.mp hown ▸ hs

end Selectable

/-! ## The entity types in reach -/

/-- The select was looked at: what its options stand for is among the names, or a select among those
searched. -/
def Covers (r : Registry) (names searched : List Text) (s : SelectType) : Prop :=
  ∀ option ∈ s.options, ∃ entities selects, r.optionTarget s.name option = .ok (entities, selects) ∧
    entities ⊆ names ∧ ∀ own ∈ selects, own.name.upper ∈ searched

theorem covers_of_optionTargets {searched entities : List Text} {selects : List SelectType}
    (h : r.optionTargets s.name s.options = .ok (entities, selects)) (hnames : entities ⊆ names)
    (hsearched : ∀ own ∈ selects.reverse, own.name.upper ∈ searched) : r.Covers names searched s := by
  intro option hmem
  obtain ⟨first, above, htarget, hentities, hselects⟩ := optionTarget_of_optionTargets h option hmem
  exact ⟨first, above, htarget, List.Subset.trans hentities hnames,
    fun own hown => hsearched own (List.mem_reverse.mpr (hselects hown))⟩

/-- A search that comes to an answer has looked at all selects in reach. -/
theorem covers_of_collectEntities (hr : r.Selectable) (hroom : r.Room steps stack seen)
    (h : r.collectEntities steps stack seen found = .ok names) :
    ∃ searched, seen ⊆ searched ∧ found ⊆ names ∧ (∀ s ∈ stack, s.name.upper ∈ searched) ∧
      ∀ s, r.Writes s → s.name.upper ∈ searched → s.name.upper ∈ seen ∨ r.Covers names searched s := by
  induction steps generalizing stack seen found with
  | zero => exact absurd hroom Room.not_zero
  | succ steps ih =>
    cases stack with
    | nil =>
      cases h
      exact ⟨seen, List.Subset.refl seen, List.Subset.refl _, nofun, fun _ _ hmem => .inl hmem⟩
    | cons current stack =>
      unfold collectEntities at h
      split at h
      · rename_i hseen
        obtain ⟨searched, hsubset, hfound, hstack, hcovers⟩ := ih hroom.skip h
        exact ⟨searched, hsubset, hfound,
          List.forall_mem_cons.mpr ⟨hsubset (List.contains_iff_mem.mp hseen), hstack⟩, hcovers⟩
      · rename_i hnew
        rw [List.contains_iff_mem] at hnew
        split at h
        · cases h
        · rename_i entities selects htargets
          obtain ⟨hlength, hwrites⟩ := writes_of_optionTargets htargets
          obtain ⟨searched, hsubset, hfound, hstack, hcovers⟩ := ih (hroom.push hnew hlength hwrites) h
          obtain ⟨hseen, hself⟩ := List.append_subset.mp hsubset
          obtain ⟨hpushed, hbehind⟩ := List.forall_mem_append.mp hstack
          obtain ⟨hold, hadded⟩ := List.append_subset.mp hfound
          have hentities : entities ⊆ names := by
            intro name hmem
            by_cases hknown : name ∈ found
            · exact hold hknown
            · exact hadded (List.mem_filter.mpr ⟨hmem, by simpa using hknown⟩)
          refine ⟨searched, hseen, hold,
            List.forall_mem_cons.mpr ⟨hself (List.mem_singleton_self _), hbehind⟩, ?_⟩
          intro s hs hmem
          -- The search behind knows the current select as one that was seen: it is covered here.
          rcases hcovers s hs hmem with hearlier | hcovered
          · rcases List.mem_append.mp hearlier with hearlier | hcurrent
            · exact .inl hearlier
            · obtain rfl := hr.unique hs (hroom.writes current List.mem_cons_self)
                (List.mem_singleton.mp hcurrent)
              exact .inr (covers_of_optionTargets htargets hentities hpushed)
          · exact .inr hcovered

/-- A row of selects in which none is left out by a search that has covered the first. -/
theorem covers_of_opens {searched : List Text}
    (hcovers : ∀ s, r.Writes s → s.name.upper ∈ searched → r.Covers names searched s)
    (hs : r.Writes s) (hmem : s.name.upper ∈ searched) (h : ReflTransGen (r.Opens r.StandsFor) s own) :
    r.Covers names searched own := by
  have hsearched : r.Writes own ∧ own.name.upper ∈ searched := by
    induction h with
    | refl => exact ⟨hs, hmem⟩
    | tail _ hopens ih =>
      obtain ⟨option, hoption, t, hfind, hstands⟩ := hopens
      obtain ⟨_, _, htarget, _, hselects⟩ := hcovers _ ih.1 ih.2 option hoption
      rw [optionTarget_of_select hfind hstands] at htarget
      cases htarget
      exact ⟨writes_of_standsFor hfind hstands, hselects _ (List.mem_singleton_self _)⟩
  exact hcovers own hsearched.1 hsearched.2

/-- Where there is an answer, no select in reach was left out. -/
theorem covers_of_selectEntities (hr : r.Selectable) (hs : r.Writes s)
    (h : r.selectEntities s = .ok names) : ∃ searched,
      ∀ own, ReflTransGen (r.Opens r.StandsFor) s own → r.Covers names searched own := by
  obtain ⟨searched, _, _, hstack, hcovers⟩ :=
    covers_of_collectEntities hr (Selectable.room hs) h
  refine ⟨searched, fun own hreach => covers_of_opens ?_ hs (hstack s List.mem_cons_self) hreach⟩
  exact fun inner hinner hmem => (hcovers inner hinner hmem).resolve_left List.not_mem_nil

theorem mem_selectEntities_iff (hr : r.Selectable) (hs : r.Writes s)
    (h : r.selectEntities s = .ok names) (name : Text) :
    name ∈ names ↔ ∃ e, r.Reaches r.StandsFor s (.entity e) ∧ e.key = name := by
  constructor
  · intro hmem
    obtain ⟨e, hoffers, hkey⟩ := offersEntity_of_selectEntities h hmem
    exact ⟨e, reaches_of_offersEntity hoffers, hkey⟩
  · rintro ⟨e, ⟨own, hreach, option, hoption, t, hfind, hstands⟩, rfl⟩
    obtain ⟨searched, hcovers⟩ := covers_of_selectEntities hr hs h
    obtain ⟨_, _, htarget, hentities, _⟩ := hcovers own hreach option hoption
    rw [optionTarget_of_entity hfind hstands] at htarget
    cases htarget
    exact hentities (List.mem_singleton_self _)

theorem not_dangles_of_selectEntities (hr : r.Selectable) (hs : r.Writes s)
    (h : r.selectEntities s = .ok names) {fault : SchemaFault} : ¬ r.Dangles s fault := by
  obtain ⟨searched, hcovers⟩ := covers_of_selectEntities hr hs h
  rintro (⟨hreach, hmem, hnone⟩ | ⟨⟨own, hreach, option, hmem, t, hfind, hstands⟩, hnone⟩)
  · obtain ⟨_, _, htarget, _⟩ := hcovers _ hreach _ hmem
    simp only [optionTarget, hnone] at htarget
    cases htarget
  · obtain ⟨_, _, htarget, _⟩ := hcovers own hreach option hmem
    rw [optionTarget_of_undefined hfind hstands hnone] at htarget
    cases htarget

theorem dangles_of_selectEntities (hr : r.Selectable) {fault : SchemaFault}
    (h : r.selectEntities s = .error fault) : r.Dangles s fault := by
  obtain ⟨own, hown, hdangles⟩ := dangles_of_collectEntities h (hr.not_endless h)
  exact List.mem_singleton.mp hown ▸ hdangles

theorem selectEntities_eq_error_iff (hr : r.Selectable) (hs : r.Writes s) :
    (∃ fault, r.selectEntities s = .error fault) ↔ ∃ fault, r.Dangles s fault := by
  constructor
  · rintro ⟨fault, h⟩
    exact ⟨fault, dangles_of_selectEntities hr h⟩
  · rintro ⟨fault, hdangles⟩
    cases h : r.selectEntities s with
    | ok names => exact absurd hdangles (not_dangles_of_selectEntities hr hs h)
    | error own => exact ⟨own, rfl⟩

/-! ## The type of a keyword -/

theorem seekAmong_of_le {key : Text} {more : Nat} (hroom : r.Room steps stack seen)
    (hle : steps ≤ more) : r.seekAmong key more stack seen = r.seekAmong key steps stack seen := by
  induction steps generalizing more stack seen with
  | zero => exact absurd hroom Room.not_zero
  | succ steps ih =>
    obtain ⟨more, rfl⟩ := Nat.exists_eq_add_of_le' (Nat.le_trans (Nat.le_add_left 1 steps) hle)
    cases stack with
    | nil => rfl
    | cons current stack =>
      rw [seekAmong, seekAmong]
      split
      · exact ih hroom.skip (Nat.le_of_succ_le_succ hle)
      · rename_i hnew
        rw [List.contains_iff_mem] at hnew
        split
        · rfl
        · rename_i selects hselects
          obtain ⟨hlength, -⟩ := seekOption_eq_inr hselects
          exact ih (hroom.push hnew hlength (writes_of_seekOption hselects))
            (Nat.le_of_succ_le_succ hle)

theorem selectOption_eq_some_iff_reaches (hs : r.find? s.name = some (.select s.name s.options))
    (keyword : Text) (t : TypeDef) : r.selectOption s keyword = some t ↔
      r.find? keyword = some t ∧ t.isEntity = false ∧ r.Reaches Eq s t := by
  rw [selectOption_eq_some_iff, offersPast_iff_offers hs, offers_iff_reaches]
  constructor
  · rintro ⟨hreach, hkey, hentity⟩
    have hfind := (offers_iff_reaches.mpr hreach).find?
    exact ⟨(find?_congr hkey).symm.trans hfind, hentity, hreach⟩
  · rintro ⟨hfind, hentity, hreach⟩
    exact ⟨hreach, key_of_find? hfind, hentity⟩

/-! ## Another order -/

section Order

variable {leads moves : TypeDef → TypeDef → Prop}

/-- What leads on in the one registry does so in the other. -/
def Matches (leads moves : TypeDef → TypeDef → Prop) : Prop :=
  ∀ t u v, t.Reordered u → leads t v → ∃ w, moves u w ∧ v.Reordered w

theorem Opens.reordered (h : r.Reordered q) (hmatches : Matches leads moves) {other : SelectType}
    (hsame : s.Reordered other) (hopens : r.Opens leads s own) :
    ∃ inner, q.Opens moves other inner ∧ own.Reordered inner := by
  obtain ⟨option, hmem, t, hfind, hleads⟩ := hopens
  obtain ⟨u, hother, htu⟩ := h.find? hfind
  obtain ⟨w, hmoves, hw⟩ := hmatches t u _ htu hleads
  obtain ⟨inner, rfl, hinner⟩ := hw.of_select
  exact ⟨inner, ⟨option, hsame.options.subset hmem, u, hother, hmoves⟩, hinner⟩

theorem opened_reordered (h : r.Reordered q) (hmatches : Matches leads moves) {other : SelectType}
    (hsame : s.Reordered other) (hreach : ReflTransGen (r.Opens leads) s own) :
    ∃ inner, ReflTransGen (q.Opens moves) other inner ∧ own.Reordered inner := by
  induction hreach with
  | refl => exact ⟨other, .refl, hsame⟩
  | tail _ hopens ih =>
    obtain ⟨inner, hinner, hown⟩ := ih
    obtain ⟨next, hnext, hlast⟩ := hopens.reordered h hmatches hown
    exact ⟨next, hinner.tail hnext, hlast⟩

theorem Reaches.reordered (h : r.Reordered q) (hmatches : Matches leads moves) {other : SelectType}
    (hsame : s.Reordered other) (hreach : r.Reaches leads s t) :
    ∃ u, q.Reaches moves other u ∧ t.Reordered u := by
  obtain ⟨own, hown, option, hmem, v, hfind, hleads⟩ := hreach
  obtain ⟨inner, hinner, hperm⟩ := opened_reordered h hmatches hsame hown
  obtain ⟨w, hother, hvw⟩ := h.find? hfind
  obtain ⟨u, hmoves, htu⟩ := hmatches v w t hvw hleads
  exact ⟨u, ⟨inner, hinner, option, hperm.options.subset hmem, w, hother, hmoves⟩, htu⟩

end Order

theorem matches_standsFor (h : r.Reordered q) : Matches r.StandsFor q.StandsFor :=
  fun _ _ _ htu hstands => h.standsFor htu hstands

theorem matches_eq : Matches Eq Eq := fun _ u _ htu heq => ⟨u, rfl, heq ▸ htu⟩

theorem Dangles.reordered (h : r.Reordered q) {other : SelectType} (hsame : s.Reordered other)
    {fault : SchemaFault} (hdangles : r.Dangles s fault) : q.Dangles other fault := by
  cases hdangles with
  | @unknownOption own option hreach hmem hnone =>
    obtain ⟨inner, hinner, hown⟩ := opened_reordered h (matches_standsFor h) hsame hreach
    rw [hown.name]
    exact .unknownOption hinner (hown.options.subset hmem) (h.find?_eq_none hnone)
  | undefined hreach hnone =>
    obtain ⟨u, hother, hu⟩ := hreach.reordered h (matches_standsFor h) hsame
    cases hu
    exact .undefined hother (h.find?_eq_none hnone)

theorem reaches_entity_reordered (h : r.Reordered q) {other : SelectType} (hsame : s.Reordered other)
    {e : EntityType} (hreach : r.Reaches r.StandsFor s (.entity e)) :
    q.Reaches q.StandsFor other (.entity e) := by
  obtain ⟨u, hother, hu⟩ := hreach.reordered h (matches_standsFor h) hsame
  cases hu
  exact hother

/-- Both name the same entity types, in whatever order, or both report a fault. -/
inductive SameNames : Except SchemaFault (List Text) → Except SchemaFault (List Text) → Prop
  | named {names others : List Text} (h : ∀ name, name ∈ names ↔ name ∈ others) :
      SameNames (.ok names) (.ok others)
  | failed (fault other : SchemaFault) : SameNames (.error fault) (.error other)

theorem sameNames_of_reordered (h : r.Reordered q) (hr : r.Selectable) (hq : q.Selectable)
    (hsame : s.Reordered own) (hs : r.Writes s) (hown : q.Writes own) :
    SameNames (r.selectEntities s) (q.selectEntities own) := by
  cases hmine : r.selectEntities s with
  | ok names =>
    cases hother : q.selectEntities own with
    | ok others =>
      refine .named fun name => ?_
      rw [mem_selectEntities_iff hr hs hmine, mem_selectEntities_iff hq hown hother]
      exact exists_congr fun e => and_congr_left fun _ =>
        ⟨reaches_entity_reordered h hsame, reaches_entity_reordered h.symm hsame.symm⟩
    | error fault =>
      have hdangles := (dangles_of_selectEntities hq hother).reordered h.symm hsame.symm
      exact absurd hdangles (not_dangles_of_selectEntities hr hs hmine)
  | error fault =>
    cases hother : q.selectEntities own with
    | ok others =>
      have hdangles := (dangles_of_selectEntities hr hmine).reordered h hsame
      exact absurd hdangles (not_dangles_of_selectEntities hq hown hother)
    | error other => exact .failed fault other

theorem selectOption_reordered (h : r.Reordered q) (hsame : s.Reordered own)
    (hs : r.find? s.name = some (.select s.name s.options))
    (hown : q.find? own.name = some (.select own.name own.options)) {keyword : Text}
    (hselect : r.selectOption s keyword = some t) :
    ∃ u, q.selectOption own keyword = some u ∧ t.Reordered u := by
  obtain ⟨hfind, hentity, hreach⟩ := (selectOption_eq_some_iff_reaches hs keyword t).mp hselect
  obtain ⟨u, hother, htu⟩ := hreach.reordered h matches_eq hsame
  have hkey : u.key = keyword.upper := by
    rw [← key_of_find? hfind, TypeDef.key, TypeDef.key, htu.name]
  refine ⟨u, (selectOption_eq_some_iff_reaches hown keyword u).mpr ⟨?_, ?_, hother⟩, htu⟩
  · rw [← (offers_iff_reaches.mpr hother).find?]
    exact find?_congr hkey.symm
  · rw [← htu.isEntity]
    exact hentity

/-- The searches through a registered select, in a registry with no other selects and no type
that is defined by itself.  Both end: with a greater bound they answer the same.  The first one
names the entity types in reach, looking through references and defined types, or reports an
option in reach that is not registered or leads to a name that is not.  The second one answers
with the type that is registered under the keyword if it is no entity type and is in reach over
options that are selects themselves, and with none otherwise.  To list options in another order
changes neither answer. -/
theorem searches_of_selectable (hr : r.Selectable)
    (hs : r.find? s.name = some (.select s.name s.options)) :
    ((∀ steps, r.selectSteps s ≤ steps → r.collectEntities steps [s] [] [] = r.selectEntities s) ∧
      (∀ names, r.selectEntities s = .ok names → ∀ name,
        name ∈ names ↔ ∃ e, r.Reaches r.StandsFor s (.entity e) ∧ e.key = name) ∧
      (∀ fault, r.selectEntities s = .error fault → r.Dangles s fault) ∧
      ∀ fault, r.Dangles s fault → ∃ other, r.selectEntities s = .error other) ∧
    (∀ keyword,
      (∀ steps, r.selectSteps s ≤ steps →
        r.seekAmong keyword.upper steps [s] [] = r.selectOption s keyword) ∧
      ∀ t, r.selectOption s keyword = some t ↔
        r.find? keyword = some t ∧ t.isEntity = false ∧ r.Reaches Eq s t) ∧
    ∀ q : Registry, q.Selectable → r.Reordered q →
      ∀ own : SelectType, q.find? s.name = some (.select own.name own.options) →
        SameNames (r.selectEntities s) (q.selectEntities own) ∧
          ∀ keyword,
            Option.Rel TypeDef.Reordered (r.selectOption s keyword) (q.selectOption own keyword) := by
  have hwrites : r.Writes s := ⟨s.name, _, hs, rfl⟩
  have hroom := Selectable.room hwrites
  refine ⟨⟨fun steps hle => collectEntities_of_le hroom hle, ?_, ?_, ?_⟩, fun keyword => ⟨?_, ?_⟩, ?_⟩
  · exact fun names h => mem_selectEntities_iff hr hwrites h
  · exact fun fault h => dangles_of_selectEntities hr h
  · exact fun fault h => (selectEntities_eq_error_iff hr hwrites).mpr ⟨fault, h⟩
  · exact fun steps hle => seekAmong_of_le hroom hle
  · exact selectOption_eq_some_iff_reaches hs keyword
  · intro q hq h own hother
    obtain ⟨u, hu, hselect⟩ := h.find? hs
    obtain ⟨inner, rfl, hsame⟩ := hselect.of_select
    obtain ⟨hname, hoptions⟩ := TypeDef.select.inj (Option.some.inj (hu.symm.trans hother))
    have hreordered : s.Reordered own := ⟨hsame.name.trans hname, hoptions ▸ hsame.options⟩
    rw [hreordered.name] at hother
    refine ⟨sameNames_of_reordered h hr hq hreordered hwrites ⟨own.name, _, hother, rfl⟩, ?_⟩
    intro keyword
    cases hmine : r.selectOption s keyword with
    | some t =>
      obtain ⟨u, hu, htu⟩ := selectOption_reordered h hreordered hs hother hmine
      rw [hu]
      exact .some htu
    | none =>
      cases hown : q.selectOption own keyword with
      | some u =>
        obtain ⟨t, ht, -⟩ := selectOption_reordered h.symm hreordered.symm hother hs hown
        rw [hmine] at ht
        cases ht
      | none => exact .none

end Registry

/-! ## A sample -/

namespace Sample

/-- A select and others that lead back to it.  The entity type is in reach behind a defined type
only, the label behind an option that is a select. -/
def menus (options : List Text) : Registry :=
  [TypeDef.entity ⟨"ITEM", [], [], false, []⟩, .defined "LABEL" (.simple .string),
    .select "INNER" ["ITEM", "Menu"], .defined "ALIAS" (.ref "inner"),
    .select "NESTED" ["LABEL", "menu"], .select "MENU" options].foldl
    (fun r t => (r.register t false).toOption.getD r) (.initial "menus")

/-- The registry with the options in their order. -/
def menuFirst : Registry := menus ["ALIAS", "NESTED"]

/-- The registry with the options the other way round. -/
def menuTurned : Registry := menus ["NESTED", "ALIAS"]

theorem selectable_menus {options : List Text} (hvalid : (menus options).validate = .ok ()) :
    (menus options).Selectable where
  registered s hs := by
    have hall : ∀ entry ∈ (menus options).types, ∀ s, entry.2.select? = some s →
        (menus options).find? s.name = some (.select s.name s.options) := by
      intro entry hentry s hs
      repeat'
        rcases List.mem_cons.mp hentry with rfl | hentry
        · cases hs <;> rfl
      cases hentry
    obtain ⟨name, t, hfind, hselect⟩ := hs
    exact hall _ (Registry.mem_types_of_find? hfind) s hselect
  acyclic entry hentry :=
    Registry.not_circle_of_checkRegistered (Registry.checkRegistered_of_checkAll hvalid entry hentry)

theorem reordered_menus {options more : List Text} (hperm : options.Perm more) :
    (menus options).Reordered (menus more) := by
  intro name
  obtain ⟨others, htypes⟩ : ∃ others, ∀ options, (menus options).types =
      others ++ [(("MENU" : Text), .select "MENU" options)] :=
    ⟨(menus []).types.dropLast, fun _ => rfl⟩
  simp only [Registry.find?, htypes, List.find?_append]
  cases others.find? fun entry => decide (entry.1 = name.upper) with
  | some entry => exact .some (.refl entry.2)
  | none =>
    by_cases hname : ("MENU" : Text) = name.upper
    · simp only [Option.none_or, List.find?_singleton, decide_eq_true hname, if_true]
      exact .some (.select "MENU" hperm)
    · simp only [Option.none_or, List.find?_singleton, decide_eq_false hname]
      exact .none

end Sample

namespace Registry

theorem searches_of_menu :
    Sample.menuFirst.Selectable ∧
      Sample.menuFirst.find? "MENU" = some (.select "MENU" ["ALIAS", "NESTED"]) ∧
      (∃ names, Sample.menuFirst.selectEntities ⟨"MENU", ["ALIAS", "NESTED"]⟩ = .ok names ∧
        ("ITEM" : Text) ∈ names) ∧
      Sample.menuFirst.selectOption ⟨"MENU", ["ALIAS", "NESTED"]⟩ "Label" =
        some (.defined "LABEL" (.simple .string)) ∧
      SameNames (Sample.menuFirst.selectEntities ⟨"MENU", ["ALIAS", "NESTED"]⟩)
        (Sample.menuTurned.selectEntities ⟨"MENU", ["NESTED", "ALIAS"]⟩) := by
  have hr : Sample.menuFirst.Selectable := Sample.selectable_menus rfl
  have hfind : Sample.menuFirst.find? "MENU" = some (.select "MENU" ["ALIAS", "NESTED"]) := rfl
  obtain ⟨⟨_, hentities, _, _⟩, hoption, horder⟩ :=
    searches_of_selectable (s := ⟨"MENU", ["ALIAS", "NESTED"]⟩) hr hfind
  have hnames : Sample.menuFirst.selectEntities ⟨"MENU", ["ALIAS", "NESTED"]⟩ = .ok ["ITEM"] := rfl
  refine ⟨hr, hfind, ⟨_, hnames, (hentities _ hnames _).mpr ⟨⟨"ITEM", [], [], false, []⟩, ?_, rfl⟩⟩,
    ((hoption "Label").2 _).mpr ⟨rfl, rfl, ?_⟩, ?_⟩
  · have hinner : Sample.menuFirst.Opens Sample.menuFirst.StandsFor ⟨"MENU", ["ALIAS", "NESTED"]⟩
        ⟨"INNER", ["ITEM", "Menu"]⟩ :=
      ⟨"ALIAS", by simp, .defined "ALIAS" (.ref "inner"), rfl,
        .head (.defined _ _) (.single (.ref rfl))⟩
    exact ⟨_, .single hinner, "ITEM", by simp, _, rfl, .refl⟩
  · have hnested : Sample.menuFirst.Opens Eq ⟨"MENU", ["ALIAS", "NESTED"]⟩
        ⟨"NESTED", ["LABEL", "menu"]⟩ :=
      ⟨"NESTED", by simp, _, rfl, rfl⟩
    exact ⟨_, .single hnested, "LABEL", by simp, _, rfl, rfl⟩
  · have hperm : List.Perm (["ALIAS", "NESTED"] : List Text) ["NESTED", "ALIAS"] := .swap _ _ _
    exact (horder Sample.menuTurned (Sample.selectable_menus rfl) (Sample.reordered_menus hperm)
      ⟨"MENU", ["NESTED", "ALIAS"]⟩ rfl).1

end Registry

end Part21
