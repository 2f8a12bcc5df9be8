import Part21.Proofs.Resolution.Following
import Part21.Proofs.Text.Capital
import Part21.Resolution.Pass

set_option autoImplicit false

/-!
# What is brought along

A resolution may bring an entity type along that is not registered.  It stands in for a
keyword that the registry does not know, so a record of known keywords is held as ever
(`Basis.hold_of_none`).  In the test of a reference it counts among the supertypes besides
what is registered, so a test that was passed without it is passed with it, unless its own
supertypes cannot be found (`Basis.checkTarget_of_none`).

To bring a registered entity type along makes no difference at all
(`Basis.enter_of_knows`).
-/

namespace Part21

/-- An entity type that is brought along does no harm: it is built by default, and where a
registered entity type has its name, its own supertypes are found. -/
structure Registry.Admits (r : Registry) (own : Blueprint) : Prop where
  byDefault : own.maker = .default
  supertypes : ∀ e, r.entity? own.definition.name = some e →
    ∃ names, r.ancestors own.definition = .ok names

/-- What is brought along, if anything, is a registered entity type. -/
def Registry.Knows (r : Registry) (brought : Option Blueprint) : Prop :=
  ∀ own, brought = some own → r.IsRegistered own.definition

namespace Registry

/-- Entity types are looked up with letter case ignored. -/
theorem entity?_congr {r : Registry} {name other : Text} (h : name.upper = other.upper) :
    r.entity? name = r.entity? other := by
  unfold entity?
  rw [find?_congr h]

/-- A registered entity type is found under its own name. -/
theorem entity?_of_isRegistered {r : Registry} {e : EntityType} (h : r.IsRegistered e) :
    r.entity? e.name = some e := by
  obtain ⟨name, hname⟩ := h
  have hfind := find?_of_entity hname
  have hkey : e.name.upper = name.upper := key_of_find? hfind
  rw [entity?_congr hkey]
  exact entity?_eq_some.mpr hfind

/-! ## Names of entity types are in capitals -/

theorem upper_of_optionTargets {r : Registry} {select : Text} {options : List Text}
    {entities : List Text} {selects : List SelectType}
    (h : r.optionTargets select options = .ok (entities, selects)) :
    ∀ name ∈ entities, name.upper = name := by
  induction options generalizing entities selects with
  | nil => cases h; nofun
  | cons option rest ih =>
    unfold optionTargets at h
    split at h
    · cases h
    · rename_i first above hfirst
      split at h
      · cases h
      · rename_i others more hothers
        cases h
        intro name hmem
        rcases List.mem_append.mp hmem with hnew | hold
        · unfold optionTarget at hfirst
          split at hfirst
          · cases hfirst
          · split at hfirst <;> cases hfirst
            · rw [List.mem_singleton.mp hnew]
              exact Text.upper_upper _
            · cases hnew
            · cases hnew
        · exact ih hothers name hold

theorem upper_of_collectEntities {r : Registry} {steps : Nat} {stack : List SelectType}
    {seen found names : List Text} (hfound : ∀ name ∈ found, name.upper = name)
    (h : r.collectEntities steps stack seen found = .ok names) :
    ∀ name ∈ names, name.upper = name := by
  induction steps generalizing stack seen found with
  | zero => cases h; exact hfound
  | succ steps ih =>
    cases stack with
    | nil => cases h; exact hfound
    | cons current stack =>
      unfold collectEntities at h
      split at h
      · exact ih hfound h
      · split at h
        · cases h
        · rename_i entities selects htargets
          refine ih (fun name hmem => ?_) h
          rcases List.mem_append.mp hmem with hold | hnew
          · exact hfound name hold
          · exact upper_of_optionTargets htargets name (List.mem_filter.mp hnew).1

end Registry

namespace Basis

variable {b : Basis} {brought : Option Blueprint}

/-! ## Holding -/

/-- A keyword that is known without what is brought along is the name of a registered entity
type, and means the same with it. -/
theorem blueprint_of_none (brought : Option Blueprint) {keyword : Text} {own : Blueprint}
    (h : b.blueprint none keyword = .ok own) :
    (b.registry.entity? keyword).isSome ∧ b.blueprint brought keyword = .ok own := by
  unfold blueprint at h ⊢
  cases hentity : b.registry.entity? keyword with
  | none => rw [hentity] at h; cases h
  | some e =>
    rw [hentity] at h
    exact ⟨rfl, h⟩

theorem partTypes_of_none (brought : Option Blueprint) {groups : List Group}
    {parts : List (EntityType × Group)}
    (h : b.partTypes none groups = .ok parts) :
    (∀ group ∈ groups, (b.registry.entity? group.keyword).isSome) ∧
      b.partTypes brought groups = .ok parts := by
  induction groups generalizing parts with
  | nil => exact ⟨nofun, h⟩
  | cons group rest ih =>
    unfold partTypes at h ⊢
    cases hown : b.blueprint none group.keyword with
    | error thrown => rw [hown] at h; cases h
    | ok own =>
      rw [hown] at h
      dsimp only at h
      obtain ⟨hknown, hsame⟩ := blueprint_of_none brought hown
      rw [hsame]
      cases hrest : b.partTypes none rest with
      | error thrown => rw [hrest] at h; cases h
      | ok others =>
        rw [hrest] at h
        obtain ⟨hothers, hsame⟩ := ih hrest
        dsimp only
        rw [hsame]
        exact ⟨List.forall_mem_cons.mpr ⟨hknown, hothers⟩, h⟩

/-- The keywords of a record that is held without what is brought along are registered. -/
theorem known_of_hold {id : Int} {r : Record} {held : HeldRecord}
    (h : b.hold none id r = .ok held) :
    ∀ keyword ∈ r.keywords, (b.registry.entity? keyword).isSome := by
  unfold hold at h
  unfold Record.keywords Record.groups
  cases hbody : r.body with
  | simple group =>
    rw [hbody] at h
    dsimp only at h
    split at h
    · cases h
    · rename_i own hown
      intro keyword hmem
      rw [List.mem_singleton.mp hmem]
      exact (blueprint_of_none none hown).1
  | complex first others loose =>
    rw [hbody] at h
    dsimp only at h
    split at h
    · cases h
    · rename_i parts hparts
      exact List.forall_mem_map.mpr (partTypes_of_none none hparts).1

/-- A record that is held without what is brought along is held the same way with it. -/
theorem hold_of_none {id : Int} {r : Record} {held : HeldRecord}
    (h : b.hold none id r = .ok held) : b.hold brought id r = .ok held := by
  unfold hold at h ⊢
  cases hbody : r.body with
  | simple group =>
    rw [hbody] at h
    dsimp only at h ⊢
    cases hown : b.blueprint none group.keyword with
    | error thrown => rw [hown] at h; cases h
    | ok own =>
      rw [hown] at h
      rw [(blueprint_of_none brought hown).2]
      exact h
  | complex first others loose =>
    rw [hbody] at h
    dsimp only at h ⊢
    cases hparts : b.partTypes none (first :: others) with
    | error thrown => rw [hparts] at h; cases h
    | ok parts =>
      rw [hparts] at h
      rw [(partTypes_of_none brought hparts).2]
      exact h

/-! ## Testing -/

/-- One test refines another: it holds where the other one does, and does not fail where the
other one does not hold. -/
structure Refines {α : Type} (among : List α) (test other : α → Except SchemaFault Bool) :
    Prop where
  holds : ∀ a ∈ among, test a = .ok true → other a = .ok true
  answers : ∀ a ∈ among, test a = .ok false → ∃ answer, other a = .ok answer

namespace Refines

variable {α : Type} {first : α} {rest : List α} {test other : α → Except SchemaFault Bool}

theorem tail (h : Refines (first :: rest) test other) : Refines rest test other :=
  ⟨fun a hmem => h.holds a (List.mem_cons_of_mem first hmem),
    fun a hmem => h.answers a (List.mem_cons_of_mem first hmem)⟩

theorem anyOf_holds {among : List α} (h : Refines among test other)
    (hany : anyOf test among = .ok true) : anyOf other among = .ok true := by
  induction among with
  | nil => cases hany
  | cons first rest ih =>
    unfold anyOf at hany ⊢
    split at hany
    · cases hany
    · rename_i htrue
      rw [h.holds first List.mem_cons_self htrue]
    · rename_i hfalse
      obtain ⟨answer, hanswer⟩ := h.answers first List.mem_cons_self hfalse
      rw [hanswer]
      cases answer with
      | true => rfl
      | false => exact ih h.tail hany

theorem anyOf_answers {among : List α} (h : Refines among test other)
    (hany : anyOf test among = .ok false) : ∃ answer, anyOf other among = .ok answer := by
  induction among with
  | nil => exact ⟨false, rfl⟩
  | cons first rest ih =>
    unfold anyOf at hany ⊢
    split at hany
    · cases hany
    · cases hany
    · rename_i hfalse
      obtain ⟨answer, hanswer⟩ := h.answers first List.mem_cons_self hfalse
      rw [hanswer]
      cases answer with
      | true => exact ⟨true, rfl⟩
      | false => exact ih h.tail hany

end Refines

/-- The test of a registered keyword with what is brought along refines the one without. -/
theorem keywordIs_refines (hadmits : ∀ own, brought = some own → b.registry.Admits own)
    {keyword : Text} (hknown : (b.registry.entity? keyword).isSome) (names : List Text) :
    Refines names (b.keywordIs none keyword) (b.keywordIs brought keyword) where
  holds name _ h := by
    unfold keywordIs at h ⊢
    split at h
    · rename_i hsame
      rw [if_pos hsame]
    · rename_i hdiffer
      rw [if_neg hdiffer]
      split at h
      · cases h
      · rfl
      · cases h
  answers name _ h := by
    unfold keywordIs at h ⊢
    split at h
    · cases h
    · rename_i hdiffer
      rw [if_neg hdiffer]
      split at h
      · cases h
      · cases h
      · cases brought with
        | none => exact ⟨false, rfl⟩
        | some own =>
          dsimp only
          split
          · rename_i hkey
            obtain ⟨e, he⟩ := Option.isSome_iff_exists.mp hknown
            rw [Registry.entity?_congr hkey] at he
            obtain ⟨above, habove⟩ := (hadmits own rfl).supertypes e he
            rw [habove]
            exact ⟨_, rfl⟩
          · exact ⟨false, rfl⟩

/-- A record that is of the type expected without what is brought along is so with it. -/
theorem checkTarget_of_none (hadmits : ∀ own, brought = some own → b.registry.Admits own)
    {id : Int} {r : Record} {expected : TypeDef} {place : Text}
    (hknown : ∀ keyword ∈ r.keywords, (b.registry.entity? keyword).isSome)
    (h : b.checkTarget none id r expected place = .ok ()) :
    b.checkTarget brought id r expected place = .ok () := by
  unfold checkTarget at h ⊢
  split at h
  · cases h
  · rename_i names hnames
    have hrefines : Refines r.keywords (fun keyword => anyOf (b.keywordIs none keyword) names)
        (fun keyword => anyOf (b.keywordIs brought keyword) names) :=
      ⟨fun keyword hmem => (keywordIs_refines hadmits (hknown keyword hmem) names).anyOf_holds,
        fun keyword hmem => (keywordIs_refines hadmits (hknown keyword hmem) names).anyOf_answers⟩
    split at h
    · cases h
    · rename_i hrecord
      rw [recordIs, hrefines.anyOf_holds hrecord]
    · cases h

/-! ## Registered entity types -/

/-- The names of the entity types that a reference may lead to are in capitals. -/
theorem upper_of_allowed {expected : TypeDef} {names : List Text}
    (h : b.allowed expected = .ok names) : ∀ name ∈ names, name.upper = name := by
  unfold allowed at h
  split at h
  · cases h
  · exact Registry.upper_of_collectEntities (List.forall_mem_nil _) h
  · cases h
    intro name hmem
    rw [List.mem_singleton.mp hmem]
    exact Text.upper_upper _

variable {own : Blueprint}

theorem blueprint_of_registered (hown : b.registry.IsRegistered own.definition) (keyword : Text) :
    b.blueprint (some own) keyword = b.blueprint none keyword := by
  unfold blueprint
  cases hentity : b.registry.entity? keyword with
  | some e => rfl
  | none =>
    have hkey : own.definition.key ≠ keyword.upper := by
      intro hkey
      rw [← Registry.entity?_congr hkey, Registry.entity?_of_isRegistered hown] at hentity
      cases hentity
    dsimp only
    rw [if_neg hkey]

theorem build_of_registered (hown : b.registry.IsRegistered own.definition) (site : Site)
    (r : Record) : b.build (some own) site r = b.build none site r := by
  have hparts : ∀ groups, b.partTypes (some own) groups = b.partTypes none groups := by
    intro groups
    induction groups with
    | nil => rfl
    | cons group rest ih => rw [partTypes, partTypes, blueprint_of_registered hown, ih]
  unfold build
  cases r.body with
  | simple group => simp only [blueprint_of_registered hown]
  | complex first others loose => simp only [hparts]

theorem keywordIs_of_registered (hown : b.registry.IsRegistered own.definition) (keyword : Text)
    {name : Text} (hname : name.upper = name) :
    b.keywordIs (some own) keyword name = b.keywordIs none keyword name := by
  unfold keywordIs
  split
  · rfl
  · split
    · rfl
    · rfl
    · rename_i hfalse
      dsimp only
      split
      · -- What is brought along is what the keyword names, and so it was asked before.
        rename_i hkey
        unfold Registry.isSubtype at hfalse
        rw [Registry.entity?_congr hkey, Registry.entity?_of_isRegistered hown] at hfalse
        dsimp only at hfalse
        split at hfalse
        · cases hfalse
        · rename_i names hnames
          rw [hname] at hfalse
          rw [hnames]
          exact hfalse
      · rfl

theorem anyOf_congr {α : Type} {test other : α → Except SchemaFault Bool} {among : List α}
    (h : ∀ a ∈ among, test a = other a) : anyOf test among = anyOf other among := by
  induction among with
  | nil => rfl
  | cons first rest ih =>
    obtain ⟨hfirst, hrest⟩ := List.forall_mem_cons.mp h
    rw [anyOf, anyOf, hfirst, ih hrest]

theorem checkTarget_of_registered (hown : b.registry.IsRegistered own.definition) (id : Int)
    (r : Record) (expected : TypeDef) (place : Text) :
    b.checkTarget (some own) id r expected place = b.checkTarget none id r expected place := by
  unfold checkTarget
  split
  · rfl
  · rename_i names hnames
    have hrecord : b.recordIs (some own) r names = b.recordIs none r names :=
      anyOf_congr fun keyword _ => anyOf_congr fun name hmem =>
        keywordIs_of_registered hown keyword (upper_of_allowed hnames name hmem)
    rw [hrecord]

/-- A pass with a registered entity type brought along goes as one without. -/
theorem enter_of_registered (hown : b.registry.IsRegistered own.definition) (buildings : Nat)
    (path : List Int) (id : Int) (p : Progress) :
    b.enter buildings ⟨some own, path⟩ id p = b.enter buildings ⟨none, path⟩ id p := by
  induction buildings generalizing path id p with
  | zero => rfl
  | succ buildings ih =>
    have hvisit : b.visit (b.enter buildings) ⟨some own, id :: path⟩ id =
        b.visit (b.enter buildings) ⟨none, id :: path⟩ id := by
      funext target expected place q
      unfold visit
      simp only [ih, checkTarget_of_registered hown]
    unfold enter
    simp only [build_of_registered hown, hvisit]

/-- The same of whatever is brought along, if it is registered. -/
theorem enter_of_knows (hknows : b.registry.Knows brought) (buildings : Nat) (path : List Int)
    (id : Int) (p : Progress) :
    b.enter buildings ⟨brought, path⟩ id p = b.enter buildings ⟨none, path⟩ id p := by
  cases brought with
  | none => rfl
  | some own => exact enter_of_registered (hknows own rfl) buildings path id p

end Basis

end Part21
