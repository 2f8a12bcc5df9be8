import Mathlib.Data.List.Nodup
import Part21.Schema.Hierarchy

set_option autoImplicit false

/-!
# Ancestry

The supertypes of an entity type are looked up by name, and each of them again, until
there are none left.  An entity type is rooted if all these look-ups lead to registered
entity types and come to an end.

A linearization exists only of rooted entity types (`rooted_of_linearization`), and
every rooted entity type has ancestors (`ancestors_of_rooted`).  So whoever has the
attributes of an entity type need not ask again whether its hierarchy is sound.
-/

namespace Part21

namespace Registry

variable {r : Registry}

/-! ## Names and keys -/

theorem mem_types_of_find? {name : Text} {t : TypeDef} (h : r.find? name = some t) :
    (name.upper, t) ∈ r.types := by
  obtain ⟨entry, hentry, rfl⟩ := Option.map_eq_some_iff.mp h
  have hkey : entry.1 = name.upper := by simpa using List.find?_some hentry
  exact hkey ▸ List.mem_of_find?_eq_some hentry

/-- A type is registered under its own name. -/
theorem key_of_find? {name : Text} {t : TypeDef} (h : r.find? name = some t) :
    t.key = name.upper :=
  (r.keyed _ (mem_types_of_find? h)).symm

/-- What a registry lists is found under its name. -/
theorem find?_of_mem_types {entry : Text × TypeDef} (h : entry ∈ r.types) :
    r.find? entry.2.name = some entry.2 := by
  have hkey : entry.1 = entry.2.name.upper := r.keyed entry h
  unfold find?
  cases hfind : r.types.find? fun other => decide (other.1 = entry.2.name.upper) with
  | none => exact absurd (decide_eq_true hkey) (List.find?_eq_none.mp hfind entry h)
  | some other =>
    have hsame : other.1 = entry.1 := by simpa [hkey] using List.find?_some hfind
    rw [List.inj_on_of_nodup_map r.distinct (List.mem_of_find?_eq_some hfind) h hsame]
    rfl

theorem find?_of_entity {name : Text} {e : EntityType} (h : r.entity name = .ok e) :
    r.find? name = some (.entity e) := by
  unfold entity get at h
  cases hfind : r.find? name with
  | none => rw [hfind] at h; cases h
  | some t =>
    rw [hfind] at h
    cases t <;> cases h
    rfl

theorem entity?_eq_some {name : Text} {e : EntityType} :
    r.entity? name = some e ↔ r.find? name = some (.entity e) := by
  unfold entity?
  cases r.find? name with
  | none => simp
  | some t => cases t <;> simp [TypeDef.entity?]

/-- Look-ups of names that are the same in capitals have the same answer. -/
theorem find?_congr {name other : Text} (h : name.upper = other.upper) :
    r.find? name = r.find? other := by
  unfold find?
  rw [h]

/-- The registry has the entity type under some name. -/
def IsRegistered (r : Registry) (e : EntityType) : Prop := ∃ name, r.entity name = .ok e

/-- A registry has no two entity types of one name. -/
theorem IsRegistered.eq_of_key {e f : EntityType} (he : r.IsRegistered e)
    (hf : r.IsRegistered f) (h : e.key = f.key) : e = f := by
  obtain ⟨name, hname⟩ := he
  obtain ⟨other, hother⟩ := hf
  have hfind := find?_of_entity hname
  have hfind' := find?_of_entity hother
  have hkeys : name.upper = other.upper :=
    (key_of_find? hfind).symm.trans (h.trans (key_of_find? hfind'))
  rw [find?_congr hkeys, hfind'] at hfind
  exact (TypeDef.entity.inj (Option.some.inj hfind)).symm

theorem isRegistered_of_entity? {name : Text} {e : EntityType} (h : r.entity? name = some e) :
    r.IsRegistered e := by
  refine ⟨name, ?_⟩
  rw [entity, get, entity?_eq_some.mp h]

theorem isRegistered_of_supertype {owner e : EntityType} {name : Text}
    (h : r.supertype owner name = .ok e) : r.IsRegistered e := by
  unfold supertype at h
  split at h
  · exact ⟨name, h⟩
  · cases h

/-! ## Rooted entity types -/

/-- The supertypes of an entity type, near and far, are registered entity types, and no
way up is endless. -/
inductive Rooted (r : Registry) : EntityType → Prop where
  | intro {e : EntityType} {above : List EntityType}
      (habove : r.supertypes e e.supertypes = .ok above)
      (hrooted : ∀ s ∈ above, Rooted r s) : Rooted r e

theorem supertypes_cons {owner first : EntityType} {others : List EntityType} {name : Text}
    {rest : List Text} (hfirst : r.supertype owner name = .ok first)
    (hothers : r.supertypes owner rest = .ok others) :
    r.supertypes owner (name :: rest) = .ok (first :: others) := by
  rw [supertypes, hfirst]
  dsimp only
  rw [hothers]

/-- What has been listed so far is registered and rooted. -/
def Listed (r : Registry) (done : List EntityType) : Prop :=
  ∀ e ∈ done, r.IsRegistered e ∧ r.Rooted e

theorem listed_nil (r : Registry) : r.Listed [] := fun _ hmem => absurd hmem List.not_mem_nil

/-- If every entity type that is gone through turns out rooted, so do all supertypes. -/
theorem rooted_of_forSupertypes {owner : EntityType}
    {act : EntityType → List EntityType → Except SchemaFault (List EntityType)}
    (hact : ∀ {e done more}, r.IsRegistered e → r.Listed done → act e done = .ok more →
      r.Rooted e ∧ r.Listed more)
    {names : List Text} {done more : List EntityType} (hdone : r.Listed done)
    (h : r.forSupertypes owner act names done = .ok more) :
    (∃ above, r.supertypes owner names = .ok above ∧ ∀ s ∈ above, r.Rooted s) ∧
      r.Listed more := by
  induction names generalizing done with
  | nil =>
    cases h
    exact ⟨⟨[], rfl, nofun⟩, hdone⟩
  | cons name rest ih =>
    unfold forSupertypes at h
    cases hfirst : r.supertype owner name with
    | error fault => rw [hfirst] at h; cases h
    | ok first =>
      rw [hfirst] at h
      dsimp only at h
      cases hact' : act first done with
      | error fault => rw [hact'] at h; cases h
      | ok between =>
        rw [hact'] at h
        obtain ⟨hrooted, hbetween⟩ := hact (isRegistered_of_supertype hfirst) hdone hact'
        obtain ⟨⟨others, hothers, hrest⟩, hmore⟩ := ih hbetween h
        refine ⟨⟨first :: others, supertypes_cons hfirst hothers, ?_⟩, hmore⟩
        exact List.forall_mem_cons.mpr ⟨hrooted, hrest⟩

theorem rooted_of_linearizeOnto {depth : Nat} {path : List Text} {current : EntityType}
    {done more : List EntityType} (hcurrent : r.IsRegistered current) (hdone : r.Listed done)
    (h : r.linearizeOnto depth path current done = .ok more) :
    r.Rooted current ∧ r.Listed more := by
  induction depth generalizing path current done more with
  | zero => cases h
  | succ depth ih =>
    unfold linearizeOnto at h
    split at h
    · cases h
    · split at h
      · -- The entity type has been listed before, and there is only one of its name.
        rename_i hkey
        cases h
        obtain ⟨e, he, hsame⟩ := List.mem_map.mp (List.contains_iff_mem.mp hkey)
        obtain ⟨hregistered, hrooted⟩ := hdone e he
        exact ⟨hregistered.eq_of_key hcurrent hsame ▸ hrooted, hdone⟩
      · cases habove : r.forSupertypes current
            (r.linearizeOnto depth (path ++ [current.key])) current.supertypes done with
        | error fault => rw [habove] at h; cases h
        | ok above =>
          rw [habove] at h
          cases h
          obtain ⟨⟨all, hall, hrooted⟩, hlisted⟩ := rooted_of_forSupertypes
            (fun he hmore hact => ih he hmore hact) hdone habove
          have hself : r.Rooted current := .intro hall hrooted
          refine ⟨hself, ?_⟩
          intro e he
          rcases List.mem_append.mp he with hold | hnew
          · exact hlisted e hold
          · rw [List.mem_singleton.mp hnew]
            exact ⟨hcurrent, hself⟩

/-- In a linearization, registered and rooted entity types come first, and then the one it is of,
which is rooted too. -/
theorem listed_of_linearization {e : EntityType} {chain : List EntityType}
    (h : r.linearization e = .ok chain) :
    r.Rooted e ∧ ∃ above, r.Listed above ∧ chain = above ++ [e] := by
  unfold linearization linearizeOnto at h
  simp only [List.contains_nil, List.map_nil, Bool.false_eq_true, if_false] at h
  cases habove : r.forSupertypes e
      (r.linearizeOnto (r.types.length + 1) ([] ++ [e.key])) e.supertypes [] with
  | error fault => rw [habove] at h; cases h
  | ok above =>
    rw [habove] at h
    obtain ⟨⟨all, hall, hrooted⟩, hlisted⟩ := rooted_of_forSupertypes
      (fun he hdone hact => rooted_of_linearizeOnto he hdone hact) r.listed_nil habove
    exact ⟨.intro hall hrooted, above, hlisted, (Except.ok.inj h).symm⟩

/-- Only rooted entity types have a linearization. -/
theorem rooted_of_linearization {e : EntityType} {chain : List EntityType}
    (h : r.linearization e = .ok chain) : r.Rooted e :=
  (listed_of_linearization h).1

theorem rooted_of_attributesOf {e : EntityType} {attributes : List Attribute}
    (h : r.attributesOf e = .ok attributes) : r.Rooted e := by
  unfold attributesOf at h
  cases hchain : r.linearization e with
  | error fault => rw [hchain] at h; cases h
  | ok chain => exact rooted_of_linearization hchain

theorem rooted_of_ownAttributes {e : EntityType} {others : List EntityType}
    {attributes : List Attribute} (h : r.ownAttributes e others = .ok attributes) :
    r.Rooted e := by
  unfold ownAttributes linearizations at h
  cases hchain : r.linearization e with
  | error fault => rw [hchain] at h; cases h
  | ok chain => exact rooted_of_linearization hchain

/-! ## Ancestors -/

theorem collectAncestors_of_rooted {steps : Nat} {stack : List EntityType} {seen : List Text}
    (h : ∀ e ∈ stack, r.Rooted e) : ∃ names, r.collectAncestors steps stack seen = .ok names := by
  induction steps generalizing stack seen with
  | zero => exact ⟨seen, rfl⟩
  | succ steps ih =>
    cases stack with
    | nil => exact ⟨seen, rfl⟩
    | cons current stack =>
      have hstack := fun e he => h e (List.mem_cons_of_mem current he)
      unfold collectAncestors
      split
      · exact ih hstack
      · obtain ⟨habove, hrooted⟩ := h current List.mem_cons_self
        rw [habove]
        apply ih
        intro e he
        rcases List.mem_append.mp he with hnew | hold
        · exact hrooted e (List.mem_reverse.mp hnew)
        · exact hstack e hold

/-- Every rooted entity type has ancestors. -/
theorem ancestors_of_rooted {e : EntityType} (h : r.Rooted e) :
    ∃ names, r.ancestors e = .ok names :=
  collectAncestors_of_rooted fun _ hmem => List.mem_singleton.mp hmem ▸ h

/-! ## Faults of hierarchies -/

theorem supertype_ne_endless (owner : EntityType) (name : Text) :
    r.supertype owner name ≠ .error .endless := by
  unfold supertype entity get
  cases r.find? name with
  | none => split <;> nofun
  | some t => cases t <;> split <;> nofun

theorem supertypes_ne_endless (owner : EntityType) (names : List Text) :
    r.supertypes owner names ≠ .error .endless := by
  induction names with
  | nil => nofun
  | cons name rest ih =>
    intro h
    unfold supertypes at h
    split at h
    · rename_i hfirst
      cases h
      exact supertype_ne_endless owner name hfirst
    · split at h
      · rename_i hothers
        cases h
        exact ih hothers
      · cases h

theorem collectAncestors_ne_endless (steps : Nat) (stack : List EntityType) (seen : List Text) :
    r.collectAncestors steps stack seen ≠ .error .endless := by
  induction steps generalizing stack seen with
  | zero => nofun
  | succ steps ih =>
    cases stack with
    | nil => nofun
    | cons current stack =>
      intro h
      unfold collectAncestors at h
      split at h
      · exact ih _ _ h
      · split at h
        · rename_i habove
          cases h
          exact supertypes_ne_endless _ _ habove
        · exact ih _ _ h

/-- No question about supertypes goes on without end. -/
theorem ancestors_ne_endless (e : EntityType) : r.ancestors e ≠ .error .endless :=
  collectAncestors_ne_endless _ _ _

theorem isSubtype_ne_endless (sub sup : Text) : r.isSubtype sub sup ≠ .error .endless := by
  intro h
  unfold isSubtype at h
  split at h
  · cases h
  · split at h
    · rename_i hancestors
      cases h
      exact ancestors_ne_endless _ hancestors
    · cases h

theorem forSupertypes_ne_endless {owner : EntityType}
    {act : EntityType → List EntityType → Except SchemaFault (List EntityType)}
    (hact : ∀ e done, act e done ≠ .error .endless) (names : List Text) (done : List EntityType) :
    r.forSupertypes owner act names done ≠ .error .endless := by
  induction names generalizing done with
  | nil => nofun
  | cons name rest ih =>
    intro h
    unfold forSupertypes at h
    split at h
    · rename_i hfirst
      cases h
      exact supertype_ne_endless owner name hfirst
    · split at h
      · rename_i hdone
        cases h
        exact hact _ _ hdone
      · exact ih _ h

theorem linearizeOnto_ne_endless (depth : Nat) (path : List Text) (current : EntityType)
    (done : List EntityType) : r.linearizeOnto depth path current done ≠ .error .endless := by
  induction depth generalizing path current done with
  | zero => nofun
  | succ depth ih =>
    intro h
    unfold linearizeOnto at h
    split at h
    · cases h
    · split at h
      · cases h
      · split at h
        · rename_i habove
          cases h
          exact forSupertypes_ne_endless (fun e done => ih _ e done) _ _ habove
        · cases h

theorem linearizations_ne_endless (es : List EntityType) :
    r.linearizations es ≠ .error .endless := by
  induction es with
  | nil => nofun
  | cons e rest ih =>
    intro h
    unfold linearizations at h
    split at h
    · rename_i hfirst
      cases h
      exact linearizeOnto_ne_endless _ _ e _ hfirst
    · split at h
      · rename_i hothers
        cases h
        exact ih hothers
      · cases h

theorem attributesOf_ne_endless (e : EntityType) : r.attributesOf e ≠ .error .endless := by
  intro h
  unfold attributesOf at h
  split at h
  · rename_i hchain
    cases h
    exact linearizeOnto_ne_endless _ _ e _ hchain
  · cases h

theorem ownAttributes_ne_endless (e : EntityType) (others : List EntityType) :
    r.ownAttributes e others ≠ .error .endless := by
  intro h
  unfold ownAttributes at h
  split at h
  · rename_i hchains
    cases h
    exact linearizations_ne_endless _ hchains
  · cases h

end Registry

end Part21
